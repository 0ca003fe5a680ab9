import Lumo.LabelledRuns
import Mathlib.Logic.Function.Basic

/-! # Programs that take turns on a shared state

A program is given by what a point of it does in one atomic turn, on a choice of its
environment. Any number of runs take turns in any order, and a run may crash at any point. -/
namespace Interleavings

open LabelledRuns

abbrev Program (σ κ ω : Type*) := κ → ω → σ → Option (κ × σ)

inductive Process (κ : Type*) where
  | live (point : κ)
  | crashed (point : κ)
  deriving DecidableEq

def Process.point {κ : Type*} : Process κ → κ
  | live point => point
  | crashed point => point

structure State (σ κ ι : Type*) where
  shared : σ
  processes : ι → Process κ

inductive Label (ω ι : Type*) where
  | turn (c : ι) (choice : ω)
  | crash (c : ι)

def Label.process {ω ι : Type*} : Label ω ι → ι
  | turn c _ => c
  | crash c => c

variable {σ κ ω ι : Type*} [DecidableEq ι]

def State.set (s : State σ κ ι) (c : ι) (x : Process κ) (shared : σ) : State σ κ ι :=
  ⟨shared, Function.update s.processes c x⟩

def next (P : Program σ κ ω) (s : State σ κ ι) : Label ω ι → Option (State σ κ ι)
  | .turn c choice =>
    match s.processes c with
    | .live k => (P k choice s.shared).map fun (k', shared) => s.set c (.live k') shared
    | .crashed _ => none
  | .crash c =>
    match s.processes c with
    | .live k => some (s.set c (.crashed k) s.shared)
    | .crashed _ => none

def Step (P : Program σ κ ω) (s : State σ κ ι) (l : Label ω ι) (u : State σ κ ι) : Prop :=
  next P s l = some u

inductive Move (P : Program σ κ ω) (s : State σ κ ι) : Label ω ι → State σ κ ι → Prop where
  | turn {c k choice k' shared} : s.processes c = .live k →
      P k choice s.shared = some (k', shared) →
      Move P s (.turn c choice) (s.set c (.live k') shared)
  | crash {c k} : s.processes c = .live k →
      Move P s (.crash c) (s.set c (.crashed k) s.shared)

section Steps

variable {P : Program σ κ ω} {s u : State σ κ ι} {l : Label ω ι}

theorem step_move (h : Step P s l u) : Move P s l u := by
  cases l with
  | turn c choice =>
    simp only [Step, next] at h
    split at h
    · rename_i k hc
      obtain ⟨⟨k', shared⟩, hk, rfl⟩ := Option.map_eq_some_iff.mp h
      exact .turn hc hk
    · cases h
  | crash c =>
    simp only [Step, next] at h
    split at h
    · rename_i k hc
      cases h
      exact .crash hc
    · cases h

@[simp] theorem set_shared (s : State σ κ ι) (c : ι) (x : Process κ) (shared : σ) :
    (s.set c x shared).shared = shared := rfl

@[simp] theorem set_processes_self (s : State σ κ ι) (c : ι) (x : Process κ) (shared : σ) :
    (s.set c x shared).processes c = x :=
  Function.update_self _ _ _

variable {c d : ι} {k' : κ} {shared : σ}

theorem set_processes_of_ne (s : State σ κ ι) (h : d ≠ c) (x : Process κ) (shared : σ) :
    (s.set c x shared).processes d = s.processes d :=
  Function.update_of_ne h _ _

theorem live_of_turn {p : κ} (h : (s.set c (.live k') shared).processes d = .live p) :
    d = c ∧ p = k' ∨ d ≠ c ∧ s.processes d = .live p := by
  by_cases hd : d = c
  · subst hd
    rw [set_processes_self] at h
    exact Or.inl ⟨rfl, (Process.live.inj h).symm⟩
  · rw [set_processes_of_ne s hd] at h
    exact Or.inr ⟨hd, h⟩

theorem live_of_crash {k p : κ} (h : (s.set c (.crashed k) shared).processes d = .live p) :
    s.processes d = .live p := by
  by_cases hd : d = c
  · subst hd
    rw [set_processes_self] at h
    cases h
  · rwa [set_processes_of_ne s hd] at h

theorem crashed_point (s : State σ κ ι) {k : κ} (hc : s.processes c = .live k) (shared : σ) (d : ι) :
    ((s.set c (.crashed k) shared).processes d).point = (s.processes d).point := by
  by_cases hd : d = c
  · subst hd
    rw [set_processes_self, hc]
    rfl
  · rw [set_processes_of_ne s hd]

/-- An invariant of the shared state, with what every point, live or crashed, relies on. -/
structure Holds (I : σ → Prop) (J : σ → κ → Prop) (s : State σ κ ι) : Prop where
  shared : I s.shared
  points : ∀ c, J s.shared (s.processes c).point

variable {I : σ → Prop} {J : σ → κ → Prop}

/-- A turn keeps the invariant, brings its own point what it relies on, and takes nothing
from the others. -/
def Keeps (P : Program σ κ ω) (I : σ → Prop) (J : σ → κ → Prop) : Prop :=
  ∀ a k choice k' a', I a → J a k → P k choice a = some (k', a') →
    I a' ∧ J a' k' ∧ ∀ other, J a other → J a' other

theorem Holds.turn {k : κ} (h : Holds I J s) (hc : s.processes c = .live k)
    (keeps : I s.shared → J s.shared k →
      I shared ∧ J shared k' ∧ ∀ other, J s.shared other → J shared other) :
    Holds I J (s.set c (.live k') shared) := by
  have hpoint := h.points c
  rw [hc] at hpoint
  obtain ⟨hi, hj, hothers⟩ := keeps h.shared hpoint
  refine ⟨hi, fun d => ?_⟩
  by_cases hd : d = c
  · subst hd
    rw [set_processes_self]
    exact hj
  · rw [set_processes_of_ne s hd]
    exact hothers _ (h.points d)

theorem Holds.crash {k : κ} (h : Holds I J s) (hc : s.processes c = .live k) :
    Holds I J (s.set c (.crashed k) s.shared) := by
  refine ⟨h.shared, fun d => ?_⟩
  rw [crashed_point s hc]
  exact h.points d

theorem Holds.step_of (keeps : ∀ c choice, l = .turn c choice → ∀ k k' a', I s.shared →
      J s.shared k → P k choice s.shared = some (k', a') →
        I a' ∧ J a' k' ∧ ∀ other, J s.shared other → J a' other)
    (h : Holds I J s) (hst : Step P s l u) : Holds I J u := by
  cases step_move hst with
  | @turn c k choice k' shared hc hk =>
    apply h.turn hc
    intro hi hj
    exact keeps c choice rfl _ _ _ hi hj hk
  | @crash c k hc => exact h.crash hc

theorem Holds.step (keeps : Keeps P I J) (h : Holds I J s) (hst : Step P s l u) : Holds I J u :=
  h.step_of (fun _ choice _ k k' a' hi hj hk => keeps s.shared k choice k' a' hi hj hk) hst

structure HoldsEach (I : σ → Prop) (J : ι → σ → κ → Prop) (s : State σ κ ι) : Prop where
  shared : I s.shared
  points : ∀ c, J c s.shared (s.processes c).point

theorem HoldsEach.turn {J : ι → σ → κ → Prop} {k : κ} (h : HoldsEach I J s)
    (hc : s.processes c = .live k) (keeps : I s.shared → J c s.shared k →
      I shared ∧ J c shared k' ∧ ∀ d, d ≠ c → ∀ other, J d s.shared other → J d shared other) :
    HoldsEach I J (s.set c (.live k') shared) := by
  have hpoint := h.points c
  rw [hc] at hpoint
  obtain ⟨hi, hj, hothers⟩ := keeps h.shared hpoint
  refine ⟨hi, fun d => ?_⟩
  by_cases hd : d = c
  · subst hd
    rw [set_processes_self]
    exact hj
  · rw [set_processes_of_ne s hd]
    exact hothers d hd _ (h.points d)

def Alone (P : Program σ κ ω) (c : ι) (s u : State σ κ ι) : Prop :=
  ∃ tr, Run (Step P) s tr ∧ (∀ x ∈ tr, ∃ choice, x.1 = .turn c choice) ∧ lastState s tr = u

theorem Alone.refl (P : Program σ κ ω) (c : ι) (s : State σ κ ι) : Alone P c s s :=
  ⟨[], trivial, by simp, rfl⟩

theorem Alone.turn {k : κ} {choice : ω} (hc : s.processes c = .live k)
    (hk : P k choice s.shared = some (k', shared)) (h : Alone P c (s.set c (.live k') shared) u) :
    Alone P c s u := by
  obtain ⟨tr, hr, hturns, hlast⟩ := h
  have hstep : Step P s (.turn c choice) (s.set c (.live k') shared) := by
    simp [Step, next, hc, hk]
  refine ⟨(.turn c choice, s.set c (.live k') shared) :: tr, ⟨hstep, hr⟩, ?_, hlast⟩
  intro x hx
  rcases List.mem_cons.mp hx with rfl | hx
  · exact ⟨choice, rfl⟩
  · exact hturns x hx

/-- The choice of a turn that the run takes. -/
def Label.own (c : ι) : Label ω ι → Option ω
  | turn d choice => if d = c then some choice else none
  | crash _ => none

def ownTurns (c : ι) (tr : List (Label ω ι × State σ κ ι)) : List ω :=
  tr.filterMap fun x => x.1.own c

def solo (P : Program σ κ ω) : κ → σ → List ω → Option (κ × σ)
  | k, a, [] => some (k, a)
  | k, a, choice :: rest => (P k choice a).bind fun (k', a') => solo P k' a' rest

theorem solo_invariant (step : ∀ a k choice k' a', J a k → P k choice a = some (k', a') → J a' k')
    {a a' : σ} {k : κ} {choices : List ω} (hj : J a k) (h : solo P k a choices = some (k', a')) :
    J a' k' := by
  induction choices generalizing k a with
  | nil =>
    cases h
    exact hj
  | cons choice rest ih =>
    obtain ⟨⟨next, b⟩, hnext, hrest⟩ := Option.bind_eq_some_iff.mp h
    exact ih (step _ _ _ _ _ hj hnext) hrest

/-- A run comes to what it comes to by itself, when its own turns see no more of the shared state
than `R` relates, and the turns of the others leave that alone. -/
theorem solo_of_run (R : σ → σ → Prop) (Own Other : κ → Prop)
    (own : ∀ a b k choice k' a', R a b → Own k → Own k' → P k choice a = some (k', a') →
      ∃ b', P k choice b = some (k', b') ∧ R a' b')
    (other : ∀ a b k choice k' a', R a b → Other k → Other k' → P k choice a = some (k', a') →
      R a' b) {tr : List (Label ω ι × State σ κ ι)} {b : σ} (hr : Run (Step P) s tr)
    (hpoints : Always (fun u => Own (u.processes c).point ∧
      ∀ d, d ≠ c → Other (u.processes d).point) s tr) (hb : R s.shared b) :
    ∃ b', solo P (s.processes c).point b (ownTurns c tr) =
        some (((lastState s tr).processes c).point, b') ∧
      R (lastState s tr).shared b' := by
  induction tr generalizing s b with
  | nil => exact ⟨b, rfl, hb⟩
  | cons x rest ih =>
    obtain ⟨l, u⟩ := x
    obtain ⟨hstep, hrest⟩ := hr
    obtain ⟨hnow, hlater⟩ := hpoints
    have hnext := hlater.head
    cases step_move hstep with
    | @turn d k choice k' shared hd hk =>
      by_cases hdc : d = c
      · subst hdc
        rw [set_processes_self] at hnext
        have hpoint : (s.processes d).point = k := by
          rw [hd]
          rfl
        rw [hpoint] at hnow
        obtain ⟨b', hk', hb'⟩ := own _ _ _ _ _ _ hb hnow.1 hnext.1 hk
        obtain ⟨b'', hsolo, hlast⟩ := ih hrest hlater hb'
        refine ⟨b'', ?_, hlast⟩
        have howns : ownTurns d ((Label.turn d choice, s.set d (.live k') shared) :: rest) =
            choice :: ownTurns d rest := by
          rw [ownTurns, List.filterMap_cons, Label.own, if_pos rfl, ownTurns]
        rw [howns, hpoint, solo, hk', Option.bind_some]
        rw [set_processes_self] at hsolo
        exact hsolo
      · have hlive := hnow.2 d hdc
        rw [hd] at hlive
        have hmoved := hnext.2 d hdc
        rw [set_processes_self] at hmoved
        obtain ⟨b', hsolo, hlast⟩ := ih hrest hlater (other _ _ _ _ _ _ hb hlive hmoved hk)
        refine ⟨b', ?_, hlast⟩
        have howns : ownTurns c ((Label.turn d choice, s.set d (.live k') shared) :: rest) =
            ownTurns c rest := by
          rw [ownTurns, List.filterMap_cons, Label.own, if_neg hdc, ownTurns]
        rw [set_processes_of_ne s (Ne.symm hdc)] at hsolo
        rw [howns]
        exact hsolo
    | @crash d k hd =>
      obtain ⟨b', hsolo, hlast⟩ := ih hrest hlater hb
      refine ⟨b', ?_, hlast⟩
      rw [crashed_point s hd] at hsolo
      exact hsolo

end Steps

end Interleavings

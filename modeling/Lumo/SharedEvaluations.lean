import Lumo.Interleavings

/-! # Evaluations that the requests of a batch share

A batch evaluates the first request of every key and answers the others of the key with the same.
An evaluation looks for an answer that is kept in one turn, and where there is none it finishes in
another; the evaluations of a batch take turns in any order. -/
namespace SharedEvaluations

open LabelledRuns Interleavings

structure Evaluation (ρ σ δ : Type) where
  look : ρ → σ → σ × Option δ
  finish : ρ → σ → σ × δ

inductive Point (ρ δ : Type) where
  | idle
  | asked (r : ρ)
  | missed (r : ρ)
  | answered (r : ρ) (d : δ)

variable {ρ κ σ δ : Type} [DecidableEq κ]

/-- A request by itself. -/
def Evaluation.evaluate (E : Evaluation ρ σ δ) (r : ρ) (a : σ) : σ × δ :=
  match E.look r a with
  | (a, some d) => (a, d)
  | (a, none) => E.finish r a

def turn (E : Evaluation ρ σ δ) : Program σ (Point ρ δ) Unit
  | .idle, _, _ => none
  | .asked r, _, a =>
    match E.look r a with
    | (a, some d) => some (.answered r d, a)
    | (a, none) => some (.missed r, a)
  | .missed r, _, a => some (.answered r (E.finish r a).2, (E.finish r a).1)
  | .answered _ _, _, _ => none

def firstOf (key : ρ → κ) (requests : List ρ) (k : κ) : Option ρ :=
  requests.find? fun r => key r = k

def batch (key : ρ → κ) (requests : List ρ) (a : σ) : State σ (Point ρ δ) κ where
  shared := a
  processes := fun k => .live ((firstOf key requests k).elim .idle .asked)

abbrev Later (E : Evaluation ρ σ δ) (s : State σ (Point ρ δ) κ) : State σ (Point ρ δ) κ → Prop :=
  Reachable (fun x => x = s) fun s c u => Step (turn E) s (.turn c ()) u

abbrev Reached (E : Evaluation ρ σ δ) (key : ρ → κ) (requests : List ρ) (a : σ) :
    State σ (Point ρ δ) κ → Prop :=
  Later E (batch key requests a)

/-- The answer that a request of the batch has by now. -/
def answer (key : ρ → κ) (s : State σ (Point ρ δ) κ) (r : ρ) : Option δ :=
  match s.processes (key r) with
  | .live (.answered _ d) => some d
  | _ => none

/-- Requests of different keys do not see each other, and what an evaluation finishes with is up to
the request alone. -/
structure Separate (E : Evaluation ρ σ δ) (key : ρ → κ) : Prop where
  look : ∀ r r' a, (E.look r' (E.look r a).1).2 = (E.look r' a).2
  finish : ∀ r r' a, key r' ≠ key r → (E.look r' (E.finish r a).1).2 = (E.look r' a).2
  same : ∀ r a b, (E.finish r a).2 = (E.finish r b).2

section

variable {E : Evaluation ρ σ δ} {key : ρ → κ} {requests : List ρ} {a : σ}
  {s u : State σ (Point ρ δ) κ}

variable {k : κ} {r first : ρ} {d : δ} {a' : σ} {p : Point ρ δ}

theorem firstOf_some (h : firstOf key requests k = some r) : r ∈ requests ∧ key r = k :=
  ⟨List.mem_of_find?_eq_some h, by simpa using List.find?_some h⟩

theorem firstOf_of_mem (h : r ∈ requests) : ∃ first, firstOf key requests (key r) = some first := by
  apply Option.isSome_iff_exists.mp
  rw [firstOf, List.find?_isSome]
  exact ⟨r, h, by simp⟩

theorem evaluate_kept (h : (E.look r a).2 = some d) : (E.evaluate r a).2 = d := by
  rcases hlook : E.look r a with ⟨b, o⟩
  rw [hlook] at h
  cases h
  simp [Evaluation.evaluate, hlook]

omit [DecidableEq κ] in
theorem evaluate_finished (hE : Separate E key) (h : (E.look r a).2 = none) (b : σ) :
    (E.evaluate r a).2 = (E.finish r b).2 := by
  rcases hlook : E.look r a with ⟨a', o⟩
  rw [hlook] at h
  cases h
  simp only [Evaluation.evaluate, hlook]
  exact hE.same r a' b

/-- What a run relies on, from where the batch started. -/
def Relies (E : Evaluation ρ σ δ) (key : ρ → κ) (requests : List ρ) (start : σ) (k : κ) (a : σ) :
    Point ρ δ → Prop
  | .idle => firstOf key requests k = none
  | .asked r => firstOf key requests k = some r ∧ (E.look r a).2 = (E.look r start).2
  | .missed r => firstOf key requests k = some r ∧ (E.look r start).2 = none
  | .answered r d => firstOf key requests k = some r ∧ d = (E.evaluate r start).2

theorem Relies.other {start : σ} (h : Relies E key requests start k a p)
    (hsame : ∀ r, key r = k → (E.look r a').2 = (E.look r a).2) :
    Relies E key requests start k a' p := by
  cases p with
  | idle => exact h
  | asked r => exact ⟨h.1, (hsame r (firstOf_some h.1).2).trans h.2⟩
  | missed r | answered r d => exact h

theorem turn_relies (hE : Separate E key) {start : σ} {p' : Point ρ δ}
    (h : Relies E key requests start k a p) (hturn : turn E p () a = some (p', a')) :
    Relies E key requests start k a' p' ∧
      ∀ r, key r ≠ k → (E.look r a').2 = (E.look r a).2 := by
  cases p with
  | idle => cases hturn
  | asked r =>
    obtain ⟨hfirst, hsame⟩ := h
    rcases hlook : E.look r a with ⟨b, o⟩
    have hothers : ∀ r', (E.look r' b).2 = (E.look r' a).2 := by
      intro r'
      have hseen := hE.look r r' a
      rwa [hlook] at hseen
    rw [hlook] at hsame
    simp only [turn, hlook] at hturn
    cases o with
    | none =>
      cases hturn
      exact ⟨⟨hfirst, hsame.symm⟩, fun r' _ => hothers r'⟩
    | some d =>
      cases hturn
      exact ⟨⟨hfirst, (evaluate_kept hsame.symm).symm⟩, fun r' _ => hothers r'⟩
  | missed r =>
    obtain ⟨hfirst, hmissed⟩ := h
    cases hturn
    refine ⟨⟨hfirst, (evaluate_finished hE hmissed a).symm⟩, ?_⟩
    intro r' hr'
    exact hE.finish r r' a (by rwa [(firstOf_some hfirst).2])
  | answered r d => cases hturn

theorem reached_relies (hE : Separate E key) (h : Reached E key requests a s) :
    HoldsEach (fun _ => True) (Relies E key requests a) s := by
  refine reachable_invariant ?_ ?_ h
  · rintro _ rfl
    refine ⟨trivial, ?_⟩
    intro k
    cases hfirst : firstOf key requests k with
    | none =>
      simp only [batch, hfirst, Process.point, Option.elim_none]
      exact hfirst
    | some r =>
      simp only [batch, hfirst, Process.point, Option.elim_some]
      exact ⟨hfirst, rfl⟩
  · intro s c u hs hst
    cases step_move hst with
    | @turn c p choice p' a' hc hturn =>
      apply hs.turn hc
      intro _ hrelies
      obtain ⟨hown, hothers⟩ := turn_relies hE hrelies hturn
      refine ⟨trivial, hown, ?_⟩
      intro d hd p hp
      apply hp.other
      intro r hr
      exact hothers r (by rwa [hr])

theorem answer_eq (hE : Separate E key) (h : Reached E key requests a s)
    (hd : answer key s r = some d) : ∃ first, firstOf key requests (key r) = some first ∧
      d = (E.evaluate first a).2 := by
  have hrelies := (reached_relies hE h).points (key r)
  rw [answer] at hd
  split at hd
  · rename_i first d' hprocess
    cases hd
    rw [hprocess] at hrelies
    exact ⟨first, hrelies⟩
  · cases hd

theorem live_of_reached (h : Reached E key requests a s) (k : κ) :
    ∃ p, s.processes k = .live p := by
  refine reachable_invariant (I := fun s => ∃ p, s.processes k = .live p) ?_ ?_ h
  · rintro _ rfl
    exact ⟨_, rfl⟩
  · rintro s c u ⟨p, hp⟩ hst
    cases step_move hst with
    | @turn c q choice q' a' hc hturn =>
      by_cases hk : k = c
      · subst hk
        exact ⟨q', set_processes_self _ _ _ _⟩
      · exact ⟨p, by rw [set_processes_of_ne s hk, hp]⟩

theorem step_turn {p' : Point ρ δ} (hp : s.processes k = .live p)
    (hturn : turn E p () s.shared = some (p', a')) :
    Step (turn E) s (.turn k ()) (s.set k (.live p') a') := by
  simp [Step, next, hp, hturn]

theorem answer_set (r : ρ) :
    answer key (s.set k (.live (.answered first d)) a') r =
      if key r = k then some d else answer key s r := by
  by_cases hr : key r = k
  · simp [answer, hr]
  · simp [answer, hr, set_processes_of_ne s hr]

theorem answer_set_missed (hp : s.processes k = .live p) (hnone : ∀ r d, p ≠ .answered r d) (r : ρ) :
    answer key (s.set k (.live (.missed first)) a') r = answer key s r := by
  by_cases hr : key r = k
  · subst hr
    simp only [answer, set_processes_self, hp]
    split
    · rename_i r' d hd
      exact absurd (Process.live.inj hd) (hnone r' d)
    · rfl
  · simp [answer, set_processes_of_ne s hr]

theorem Later.trans {w : State σ (Point ρ δ) κ} (h : Later E s u) (hw : Later E u w) :
    Later E s w := by
  induction hw with
  | start hu =>
    subst hu
    exact h
  | step _ hst ih => exact ih.step hst

theorem finish_missed (hp : s.processes (key r) = .live (.missed first)) :
    ∃ u, Later E s u ∧ (answer key u r).isSome ∧
      ∀ r', (answer key s r').isSome → (answer key u r').isSome := by
  refine ⟨_, .step (.start rfl) (step_turn hp rfl), ?_, ?_⟩
  · rw [answer_set, if_pos rfl]
    rfl
  · intro r' hr'
    rw [answer_set]
    split
    · rfl
    · exact hr'

/-- Any request of the batch can be answered next. -/
theorem answer_next (hE : Separate E key) (h : Reached E key requests a s) (hr : r ∈ requests) :
    ∃ u, Later E s u ∧ (answer key u r).isSome ∧
      ∀ r', (answer key s r').isSome → (answer key u r').isSome := by
  have hrelies := (reached_relies hE h).points (key r)
  have hexists : ∃ first, firstOf key requests (key r) = some first := firstOf_of_mem hr
  obtain ⟨first, hfirst⟩ := hexists
  obtain ⟨p, hp⟩ := live_of_reached h (key r)
  rw [hp] at hrelies
  cases p with
  | idle =>
    have hnone : firstOf key requests (key r) = none := hrelies
    rw [hfirst] at hnone
    cases hnone
  | asked r' =>
    rcases hlook : E.look r' s.shared with ⟨b, o⟩
    cases o with
    | none =>
      have hturn : turn E (.asked r') () s.shared = some (.missed r', b) := by simp [turn, hlook]
      have hmissed : Later E s _ := .step (.start rfl) (step_turn hp hturn)
      obtain ⟨u, hu, hanswer, hkept⟩ := finish_missed (set_processes_self s _ _ _)
      refine ⟨u, hmissed.trans hu, hanswer, ?_⟩
      intro x hx
      apply hkept
      rwa [answer_set_missed hp (by simp)]
    | some d =>
      have hturn : turn E (.asked r') () s.shared = some (.answered r' d, b) := by
        simp [turn, hlook]
      refine ⟨_, .step (.start rfl) (step_turn hp hturn), ?_, ?_⟩
      · rw [answer_set, if_pos rfl]
        rfl
      · intro x hx
        rw [answer_set]
        split
        · rfl
        · exact hx
  | missed r' => exact finish_missed hp
  | answered r' d =>
    refine ⟨s, .start rfl, ?_, fun _ hx => hx⟩
    simp [answer, hp]

theorem can_finish (hE : Separate E key) (h : Reached E key requests a s) :
    ∃ u, Later E s u ∧ ∀ r ∈ requests, (answer key u r).isSome := by
  have hsome : ∀ l : List ρ, (∀ r ∈ l, r ∈ requests) →
      ∃ u, Later E s u ∧ ∀ r ∈ l, (answer key u r).isSome := by
    intro l hl
    induction l with
    | nil => exact ⟨s, .start rfl, by simp⟩
    | cons r l ih =>
      obtain ⟨u, hu, hanswered⟩ := ih fun x hx => hl x (List.mem_cons_of_mem r hx)
      obtain ⟨w, hw, hnext, hkept⟩ := answer_next hE (h.trans hu) (hl r List.mem_cons_self)
      refine ⟨w, hu.trans hw, ?_⟩
      intro x hx
      rcases List.mem_cons.mp hx with rfl | hx
      · exact hnext
      · exact hkept x (hanswered x hx)
  exact hsome requests fun _ hr => hr

theorem agrees_iff (hE : Separate E key) (Agrees : δ → δ → Prop) :
    (∀ s, Reached E key requests a s → ∀ r ∈ requests, ∀ d, answer key s r = some d →
        Agrees d (E.evaluate r a).2) ↔
      ∀ r ∈ requests, ∀ first, firstOf key requests (key r) = some first →
        Agrees (E.evaluate first a).2 (E.evaluate r a).2 := by
  constructor
  · intro hagrees r hr first hfirst
    obtain ⟨s, hs, hfinished⟩ := can_finish hE (.start rfl)
    obtain ⟨d, hd⟩ := Option.isSome_iff_exists.mp (hfinished r hr)
    obtain ⟨first', hfirst', heq⟩ := answer_eq hE hs hd
    rw [hfirst] at hfirst'
    cases hfirst'
    rw [← heq]
    exact hagrees s hs r hr d hd
  · intro hfirsts s hs r hr d hd
    obtain ⟨first, hfirst, rfl⟩ := answer_eq hE hs hd
    exact hfirsts r hr first hfirst

end

end SharedEvaluations

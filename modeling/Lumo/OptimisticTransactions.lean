import Mathlib.Logic.Function.Basic
import Mathlib.Data.Set.Insert
import Lumo.LabelledRuns

/-! # Calls that share one row under an optimistic lock

A transaction reads the row, works out its answer, and saves under the version it read; a
save that finds another version conflicts. Between transactions a call may act on its
environment, and it may crash anywhere. The interleaved system is shown to refine one in
which every transaction happens at once, so that invariants are proved of the latter. -/
namespace OptimisticTransactions

open LabelledRuns

inductive Outcome (α κ : Type*) where
  | answer (next : κ)
  | save (new : α) (next : κ)

structure Row (α : Type*) where
  value : α
  version : ℕ

/-- A call stands at a point of its program, has read the row and is about to save under
the version it read, or has crashed. `draw` is the number its generated ids come from. -/
inductive Call (α κ : Type*) where
  | ready (point : κ)
  | saving (point : κ) (draw expected : ℕ) (new : α) (next : κ)
  | crashed

/-- The program of the calls. `body` is the transaction that a point is about to run, on a
fresh number, the environment and the value read; `conflict` is where a lost lock leads;
`act` is a step outside every transaction, with the choice its environment makes. -/
structure Protocol (α κ ε ω : Type*) where
  body : κ → Option (ℕ → ε → α → Outcome α κ)
  conflict : κ → κ
  act : κ → ω → ε → Option (κ × ε)

structure State (α κ ε ι : Type*) where
  row : Row α
  env : ε
  draws : ℕ
  calls : ι → Call α κ

inductive Label (ω ι : Type*) where
  | read (c : ι)
  | write (c : ι)
  | act (c : ι) (w : ω)
  | crash (c : ι)

variable {α κ ε ω ι : Type*} [DecidableEq ι]

def State.setCall (s : State α κ ε ι) (c : ι) (x : Call α κ) : State α κ ε ι :=
  { s with calls := Function.update s.calls c x }

/-- One step of the interleaved system, when the label is enabled. -/
def next (P : Protocol α κ ε ω) (s : State α κ ε ι) : Label ω ι → Option (State α κ ε ι)
  | .read c =>
    match s.calls c with
    | .ready k =>
      match P.body k with
      | none => none
      | some b =>
        match b s.draws s.env s.row.value with
        | .answer k' => some { s.setCall c (.ready k') with draws := s.draws + 1 }
        | .save new k' =>
          some { s.setCall c (.saving k s.draws s.row.version new k') with draws := s.draws + 1 }
    | _ => none
  | .write c =>
    match s.calls c with
    | .saving k _ v new k' =>
      if v = s.row.version then some { s.setCall c (.ready k') with row := ⟨new, v + 1⟩ }
      else some (s.setCall c (.ready (P.conflict k)))
    | _ => none
  | .act c w =>
    match s.calls c with
    | .ready k =>
      match P.act k w s.env with
      | none => none
      | some (k', e') => some { s.setCall c (.ready k') with env := e' }
    | _ => none
  | .crash c => some (s.setCall c .crashed)

def Step (P : Protocol α κ ε ω) (s : State α κ ε ι) (l : Label ω ι) (u : State α κ ε ι) : Prop :=
  next P s l = some u

/-- The run of a list of labels, cut short at the first that is not enabled. -/
def play (P : Protocol α κ ε ω) (s : State α κ ε ι) :
    List (Label ω ι) → List (Label ω ι × State α κ ε ι)
  | [] => []
  | l :: ls =>
    match next P s l with
    | none => []
    | some u => (l, u) :: play P u ls

theorem run_play (P : Protocol α κ ε ω) (s : State α κ ε ι) (ls : List (Label ω ι)) :
    Run (Step P) s (play P s ls) := by
  induction ls generalizing s with
  | nil => trivial
  | cons l ls ih =>
    rw [play]
    split
    · trivial
    · rename_i u hu
      exact ⟨hu, ih u⟩

/-- `points c` is where call `c` stands, none once it has crashed; `spent` are the numbers
that a finished transaction drew, so that no later one draws them again. -/
structure View (α κ ε ι : Type*) where
  value : α
  env : ε
  spent : Set ℕ
  points : ι → Option κ

inductive Event (ω ι : Type*) where
  | answer (c : ι)
  | save (c : ι)
  | conflict (c : ι)
  | act (c : ι) (w : ω)
  | crash (c : ι)
  | idle

/-- A transaction may have looked at an earlier environment, but acts on the current value. -/
inductive AtomicStep (P : Protocol α κ ε ω) :
    View α κ ε ι → Event ω ι → View α κ ε ι → Prop where
  | answer {v c k b d e k'} {spent : Set ℕ} : v.points c = some k → P.body k = some b →
      d ∉ v.spent → b d e v.value = .answer k' → insert d v.spent ⊆ spent →
      AtomicStep P v (.answer c)
        { v with spent := spent, points := Function.update v.points c (some k') }
  | save {v c k b d e new k'} {spent : Set ℕ} : v.points c = some k → P.body k = some b →
      d ∉ v.spent → b d e v.value = .save new k' → insert d v.spent ⊆ spent →
      AtomicStep P v (.save c)
        { v with value := new, spent := spent, points := Function.update v.points c (some k') }
  | conflict {v c k b} {spent : Set ℕ} : v.points c = some k → P.body k = some b →
      v.spent ⊆ spent →
      AtomicStep P v (.conflict c)
        { v with spent := spent, points := Function.update v.points c (some (P.conflict k)) }
  | act {v c k w k' e'} : v.points c = some k → P.act k w v.env = some (k', e') →
      AtomicStep P v (.act c w)
        { v with env := e', points := Function.update v.points c (some k') }
  | crash {v c} {spent : Set ℕ} : v.spent ⊆ spent →
      AtomicStep P v (.crash c)
        { v with spent := spent, points := Function.update v.points c none }
  | idle {v} : AtomicStep P v .idle v

theorem points_update {points : ι → Option κ} {Good : κ → Prop} {c : ι} {x : Option κ}
    (h : ∀ c k, points c = some k → Good k) (hx : ∀ k, x = some k → Good k) :
    ∀ c' k, Function.update points c x c' = some k → Good k := by
  intro c' k hk
  by_cases hc : c' = c
  · subst c'
    exact hx k (by simpa using hk)
  · exact h c' k (by simpa [hc] using hk)

/-- The calls that stand at a point, or have crashed; each of `pending` is one of them. -/
structure Waiting (k : κ) (points : ι → Option κ) (pending : List ι) : Prop where
  nodup : pending.Nodup
  waiting : ∀ c, points c = some k → c ∈ pending
  only : ∀ c ∈ pending, points c = some k ∨ points c = none

namespace Waiting

variable {k : κ} {points : ι → Option κ} {pending : List ι} {c : ι}

variable {k' : κ}

omit [DecidableEq ι] in
theorem not_mem (h : Waiting k points pending) (hc : points c = some k') (hk : k' ≠ k) :
    c ∉ pending := by
  intro hmem
  rcases h.only c hmem with hwait | hnone
  · rw [hc] at hwait
    exact hk (Option.some.inj hwait)
  · rw [hc] at hnone
    cases hnone

theorem leave (h : Waiting k points pending) {x : Option κ} (hx : x ≠ some k) :
    Waiting k (Function.update points c x) (pending.erase c) := by
  refine ⟨h.nodup.erase c, fun c' hc' => ?_, fun c' hc' => ?_⟩
  · by_cases heq : c' = c
    · rw [heq, Function.update_self] at hc'
      exact absurd hc' hx
    · rw [Function.update_of_ne heq] at hc'
      exact h.nodup.mem_erase_iff.mpr ⟨heq, h.waiting c' hc'⟩
  · obtain ⟨hne, hmem⟩ := h.nodup.mem_erase_iff.mp hc'
    rw [Function.update_of_ne hne]
    exact h.only c' hmem

theorem move (h : Waiting k points pending) {x : Option κ} (hc : points c = some k') (hk : k' ≠ k)
    (hx : x ≠ some k) : Waiting k (Function.update points c x) pending := by
  have hleave := h.leave (c := c) hx
  rwa [List.erase_of_not_mem (h.not_mem hc hk)] at hleave

theorem enter (h : Waiting k points pending) (hc : points c = some k') (hk : k' ≠ k) :
    Waiting k (Function.update points c (some k)) (c :: pending) := by
  refine ⟨List.nodup_cons.mpr ⟨h.not_mem hc hk, h.nodup⟩, fun c' hc' => ?_, fun c' hc' => ?_⟩
  · by_cases heq : c' = c
    · exact heq ▸ List.mem_cons_self
    · rw [Function.update_of_ne heq] at hc'
      exact List.mem_cons_of_mem _ (h.waiting c' hc')
  · by_cases heq : c' = c
    · exact Or.inl (by rw [heq, Function.update_self])
    · rw [Function.update_of_ne heq]
      exact h.only c' ((List.mem_cons.mp hc').resolve_left heq)

theorem crash (h : Waiting k points pending) (c : ι) :
    Waiting k (Function.update points c none) pending := by
  refine ⟨h.nodup, fun c' hc' => ?_, fun c' hc' => ?_⟩
  · by_cases heq : c' = c
    · rw [heq, Function.update_self] at hc'
      cases hc'
    · rw [Function.update_of_ne heq] at hc'
      exact h.waiting c' hc'
  · by_cases heq : c' = c
    · exact Or.inr (by rw [heq, Function.update_self])
    · rw [Function.update_of_ne heq]
      exact h.only c' hc'

end Waiting

def Call.point : Call α κ → Option κ
  | .ready k => some k
  | .saving k _ _ _ _ => some k
  | .crashed => none

/-- The call that holds number `d` for a save it has not made yet. -/
def Holds (s : State α κ ε ι) (c : ι) (d : ℕ) : Prop :=
  ∃ k v new k', s.calls c = .saving k d v new k'

def view (s : State α κ ε ι) : View α κ ε ι where
  value := s.row.value
  env := s.env
  spent := { d | d < s.draws ∧ ∀ c, ¬ Holds s c d }
  points c := (s.calls c).point

/-- The step of the atomic system that a step of the interleaved one amounts to: a read that
leads to a save is nothing yet, the save is the transaction. -/
def event (P : Protocol α κ ε ω) (s : State α κ ε ι) : Label ω ι → Event ω ι
  | .read c =>
    match s.calls c with
    | .ready k =>
      match P.body k with
      | none => .idle
      | some b =>
        match b s.draws s.env s.row.value with
        | .answer _ => .answer c
        | .save _ _ => .idle
    | _ => .idle
  | .write c =>
    match s.calls c with
    | .saving _ _ v _ _ => if v = s.row.version then .save c else .conflict c
    | _ => .idle
  | .act c w => .act c w
  | .crash c => .crash c

/-- A pending save was worked out from the value it will replace, unless the row has moved
on; and the numbers held for pending saves are distinct. -/
structure Coherent (P : Protocol α κ ε ω) (s : State α κ ε ι) : Prop where
  worked_out : ∀ c k d v new k', s.calls c = .saving k d v new k' →
    d < s.draws ∧ v ≤ s.row.version ∧ ∃ b e a, P.body k = some b ∧
      b d e a = .save new k' ∧ (v = s.row.version → a = s.row.value)
  distinct : ∀ c c' d, Holds s c d → Holds s c' d → c = c'

/-- No call has begun a transaction. -/
def Quiet (s : State α κ ε ι) : Prop := ∀ c k d v new k', s.calls c ≠ .saving k d v new k'

omit [DecidableEq ι] in
theorem Quiet.coherent {P : Protocol α κ ε ω} {s : State α κ ε ι} (h : Quiet s) :
    Coherent P s where
  worked_out c k d v new k' hc := absurd hc (h c k d v new k')
  distinct c _ d hc _ := by
    obtain ⟨k, v, new, k', hk⟩ := hc
    exact absurd hk (h c k d v new k')

/-- Everything a step of the interleaved system can be, with the event it amounts to. -/
inductive Move (P : Protocol α κ ε ω) (s : State α κ ε ι) :
    Label ω ι → Event ω ι → State α κ ε ι → Prop where
  | answer {c k b k'} : s.calls c = .ready k → P.body k = some b →
      b s.draws s.env s.row.value = .answer k' →
      Move P s (.read c) (.answer c) { s.setCall c (.ready k') with draws := s.draws + 1 }
  | begin {c k b new k'} : s.calls c = .ready k → P.body k = some b →
      b s.draws s.env s.row.value = .save new k' →
      Move P s (.read c) .idle
        { s.setCall c (.saving k s.draws s.row.version new k') with draws := s.draws + 1 }
  | commit {c k d new k'} : s.calls c = .saving k d s.row.version new k' →
      Move P s (.write c) (.save c)
        { s.setCall c (.ready k') with row := ⟨new, s.row.version + 1⟩ }
  | lose {c k d v new k'} : s.calls c = .saving k d v new k' → v ≠ s.row.version →
      Move P s (.write c) (.conflict c) (s.setCall c (.ready (P.conflict k)))
  | act {c k w k' e'} : s.calls c = .ready k → P.act k w s.env = some (k', e') →
      Move P s (.act c w) (.act c w) { s.setCall c (.ready k') with env := e' }
  | crash {c} : Move P s (.crash c) (.crash c) (s.setCall c .crashed)

variable {P : Protocol α κ ε ω} {s u : State α κ ε ι} {l : Label ω ι} {e : Event ω ι}
  {x : Call α κ} {c : ι} {d : ℕ} {k k' : κ} {new : α}

theorem step_move (h : Step P s l u) :
    Move P s l (event P s l) u := by
  rw [Step] at h
  cases l with
  | read c =>
    cases hc : s.calls c with
    | ready k =>
      cases hb : P.body k with
      | none => simp [next, hc, hb] at h
      | some b =>
        cases ho : b s.draws s.env s.row.value with
        | answer k' =>
          simp only [next, hc, hb, ho, Option.some.injEq] at h
          subst h
          simpa only [event, hc, hb, ho] using Move.answer hc hb ho
        | save new k' =>
          simp only [next, hc, hb, ho, Option.some.injEq] at h
          subst h
          simpa only [event, hc, hb, ho] using Move.begin hc hb ho
    | saving | crashed => simp [next, hc] at h
  | write c =>
    cases hc : s.calls c with
    | ready => simp [next, hc] at h
    | saving k d v new k' =>
      by_cases hv : v = s.row.version
      · simp only [next, hc, hv, if_true, Option.some.injEq] at h
        subst h
        simp only [event, hc, hv, if_true]
        exact .commit (hv ▸ hc)
      · simp only [next, hc, hv, if_false, Option.some.injEq] at h
        subst h
        simpa only [event, hc, hv, if_false] using Move.lose hc hv
    | crashed => simp [next, hc] at h
  | act c w =>
    cases hc : s.calls c with
    | ready k =>
      cases ha : P.act k w s.env with
      | none => simp [next, hc, ha] at h
      | some x =>
        obtain ⟨k', e'⟩ := x
        simp only [next, hc, ha, Option.some.injEq] at h
        subst h
        exact .act hc ha
    | saving | crashed => simp [next, hc] at h
  | crash c =>
    simp only [next, Option.some.injEq] at h
    subst h
    exact .crash

theorem move_row (h : Move P s l e u) :
    (∃ c, l = .write c ∧ e = .save c) ∨ u.row = s.row ∧ ∀ c, e ≠ .save c := by
  cases h with
  | commit => exact Or.inl ⟨_, rfl, rfl⟩
  | _ => exact Or.inr ⟨rfl, fun _ h => by cases h⟩

@[simp] theorem setCall_row (s : State α κ ε ι) (c x) : (s.setCall c x).row = s.row := rfl
@[simp] theorem setCall_env (s : State α κ ε ι) (c x) : (s.setCall c x).env = s.env := rfl
@[simp] theorem setCall_draws (s : State α κ ε ι) (c x) : (s.setCall c x).draws = s.draws := rfl
@[simp] theorem setCall_calls (s : State α κ ε ι) (c x) :
    (s.setCall c x).calls = Function.update s.calls c x := rfl

theorem points_setCall (s : State α κ ε ι) (c : ι) (x : Call α κ) :
    (fun i => ((s.setCall c x).calls i).point) =
      Function.update (fun i => (s.calls i).point) c x.point := by
  funext i
  by_cases hi : i = c
  · subst i; simp
  · simp [hi]

theorem view_of_calls (h : u.calls = (s.setCall c x).calls) :
    view u = ⟨u.row.value, u.env, (view u).spent,
      Function.update (view s).points c x.point⟩ := by
  have hp := points_setCall s c x
  rw [← h] at hp
  simp only [view, View.mk.injEq, true_and]
  exact hp

theorem holds_setCall (hx : ∀ k d v new k', x ≠ .saving k d v new k')
    {i : ι} : Holds (s.setCall c x) i d ↔ i ≠ c ∧ Holds s i d := by
  unfold Holds
  by_cases hi : i = c
  · subst i
    simp only [setCall_calls, Function.update_self, ne_eq, not_true_eq_false, false_and,
      iff_false]
    rintro ⟨k, v, new, k', h⟩
    exact hx _ _ _ _ _ h
  · simp [hi]

theorem holds_begin {e v : ℕ} {i : ι} :
    Holds (s.setCall c (.saving k e v new k')) i d ↔
      (i = c ∧ d = e) ∨ (i ≠ c ∧ Holds s i d) := by
  unfold Holds
  by_cases hi : i = c
  · subst i
    simp only [setCall_calls, Function.update_self, true_and, ne_eq, not_true_eq_false,
      false_and, or_false]
    constructor
    · rintro ⟨_, _, _, _, h⟩
      cases h; rfl
    · rintro rfl
      exact ⟨_, _, _, _, rfl⟩
  · simp [hi]

theorem spent_mono (hx : ∀ k d v new k', x ≠ .saving k d v new k') :
    (view s).spent ⊆ (view (s.setCall c x)).spent := by
  rintro d ⟨hd, hn⟩
  refine ⟨hd, fun i hi => hn i ?_⟩
  exact ((holds_setCall hx).mp hi).2

omit [DecidableEq ι] in
theorem point_ready (h : s.calls c = .ready k) :
    (view s).points c = some k := by simp [view, h, Call.point]

omit [DecidableEq ι] in
theorem point_saving {v : ℕ}
    (h : s.calls c = .saving k d v new k') : (view s).points c = some k := by
  simp [view, h, Call.point]

theorem ready_ne_saving {k₀ : κ} (k : κ) (d v : ℕ) (new : α) (k' : κ) :
    (Call.ready k₀ : Call α κ) ≠ .saving k d v new k' := by simp

theorem crashed_ne_saving (k : κ) (d v : ℕ) (new : α) (k' : κ) :
    (Call.crashed : Call α κ) ≠ .saving k d v new k' := by simp

theorem Coherent.release (h : Coherent P s)
    (hx : ∀ k d v new k', x ≠ .saving k d v new k') (hcalls : u.calls = (s.setCall c x).calls)
    (hd : s.draws ≤ u.draws) (hr : u.row = s.row ∨ u.row.version = s.row.version + 1) :
    Coherent P u := by
  have old : ∀ i d, Holds u i d → Holds s i d := by
    intro i d hi
    have hs : Holds (s.setCall c x) i d := by simpa [Holds, hcalls] using hi
    exact ((holds_setCall hx).mp hs).2
  refine ⟨?_, fun i j d hi hj => h.distinct i j d (old i d hi) (old j d hj)⟩
  intro i k d v new k' hi
  rw [hcalls] at hi
  have hic : i ≠ c := by
    rintro rfl
    exact hx k d v new k' (by simpa using hi)
  obtain ⟨hlt, hv, b, e, a, hb, ho, ha⟩ :=
    h.worked_out i k d v new k' (by simpa [hic] using hi)
  refine ⟨hlt.trans_le hd, ?_, b, e, a, hb, ho, ?_⟩
  · rcases hr with hr | hr
    · rw [hr]; exact hv
    · omega
  · intro he
    rcases hr with hr | hr
    · rw [hr] at he ⊢; exact ha he
    · omega

theorem Coherent.begin {b : ℕ → ε → α → Outcome α κ} (h : Coherent P s) (hb : P.body k = some b)
    (ho : b s.draws s.env s.row.value = .save new k') :
    Coherent P { s.setCall c (.saving k s.draws s.row.version new k') with
      draws := s.draws + 1 } := by
  have held : ∀ i d, Holds s i d → d < s.draws := by
    rintro i d ⟨k, v, new, k', hi⟩
    exact (h.worked_out i k d v new k' hi).1
  constructor
  · intro i k₁ d v new₁ k₁' hi
    by_cases hic : i = c
    · subst i
      simp only [setCall_calls, Function.update_self, Call.saving.injEq] at hi
      obtain ⟨rfl, rfl, rfl, rfl, rfl⟩ := hi
      exact ⟨Nat.lt_succ_self _, le_refl _, b, s.env, s.row.value, hb, ho, fun _ => rfl⟩
    · obtain ⟨hlt, hrest⟩ := h.worked_out i k₁ d v new₁ k₁' (by simpa [hic] using hi)
      exact ⟨hlt.trans (Nat.lt_succ_self _), hrest⟩
  · intro i j d hi hj
    rcases holds_begin.mp hi with ⟨hic, hd⟩ | ⟨_, ho⟩
    · rcases holds_begin.mp hj with ⟨hjc, _⟩ | ⟨_, hp⟩
      · rw [hic, hjc]
      · have := held j d hp
        omega
    · rcases holds_begin.mp hj with ⟨_, he⟩ | ⟨_, hp⟩
      · have := held i d ho
        omega
      · exact h.distinct i j d ho hp

theorem coherent_move (h : Coherent P s) (m : Move P s l e u) : Coherent P u := by
  cases m with
  | answer => exact h.release (ready_ne_saving) rfl (Nat.le_succ _) (Or.inl rfl)
  | begin _ hb ho => exact h.begin hb ho
  | commit => exact h.release (ready_ne_saving) rfl (le_refl _) (Or.inr rfl)
  | lose | act => exact h.release (ready_ne_saving) rfl (le_refl _) (Or.inl rfl)
  | crash => exact h.release (crashed_ne_saving) rfl (le_refl _) (Or.inl rfl)

/-- Every step of the interleaved system is, on the view, the step of the atomic system that
`event` names. -/
theorem atomic_move (h : Coherent P s) (m : Move P s l e u) : AtomicStep P (view s) e (view u) := by
  cases m with
  | @answer c k b k' hc hb ho =>
    have fresh : s.draws ∉ (view s).spent := fun hd => absurd hd.1 (lt_irrefl _)
    have grown : insert s.draws (view s).spent ⊆
        (view { s.setCall c (.ready k') with draws := s.draws + 1 }).spent := by
      rintro d (rfl | hd)
      · refine ⟨Nat.lt_succ_self _, fun i hi => ?_⟩
        obtain ⟨k₁, v, new, k₁', hi⟩ := ((holds_setCall ready_ne_saving).mp hi).2
        exact absurd (h.worked_out i k₁ _ v new k₁' hi).1 (lt_irrefl _)
      · exact ⟨hd.1.trans (Nat.lt_succ_self _), (spent_mono ready_ne_saving hd).2⟩
    rw [view_of_calls (u := { s.setCall c (.ready k') with draws := s.draws + 1 })
      (x := .ready k') rfl]
    exact .answer (point_ready hc) hb fresh ho grown
  | @begin c k b new k' hc hb ho =>
    have same : view { s.setCall c (.saving k s.draws s.row.version new k') with
        draws := s.draws + 1 } = view s := by
      rw [view_of_calls (u := { s.setCall c (.saving k s.draws s.row.version new k') with
        draws := s.draws + 1 }) (x := .saving k s.draws s.row.version new k') rfl]
      have hp : Function.update (view s).points c
          (Call.saving k s.draws s.row.version new k').point = (view s).points := by
        rw [Function.update_eq_self_iff]
        exact (point_ready hc).symm
      rw [hp]
      have hs : (view { s.setCall c (.saving k s.draws s.row.version new k') with
          draws := s.draws + 1 }).spent = (view s).spent := by
        ext d
        constructor
        · rintro ⟨hd, hn⟩
          have hne : d ≠ s.draws := fun he => hn c (holds_begin.mpr (Or.inl ⟨rfl, he⟩))
          have hlt : d < s.draws + 1 := hd
          refine ⟨by omega, fun i hi => ?_⟩
          have hic : i ≠ c := by
            rintro rfl
            obtain ⟨_, _, _, _, hi⟩ := hi
            rw [hc] at hi
            cases hi
          exact hn i (holds_begin.mpr (Or.inr ⟨hic, hi⟩))
        · rintro ⟨hd, hn⟩
          refine ⟨Nat.lt_succ_of_lt hd, fun i hi => ?_⟩
          rcases holds_begin.mp hi with ⟨_, he⟩ | ⟨_, hi⟩
          · omega
          · exact hn i hi
      rw [hs]
      rfl
    rw [same]
    exact .idle
  | @commit c k d new k' hc =>
    obtain ⟨hlt, _, b, e, a, hb, ho, ha⟩ := h.worked_out c k d _ new k' hc
    rw [ha rfl] at ho
    have mine : Holds s c d := ⟨_, _, _, _, hc⟩
    have fresh : d ∉ (view s).spent := fun hd => hd.2 c mine
    have grown : insert d (view s).spent ⊆
        (view { s.setCall c (.ready k') with row := ⟨new, s.row.version + 1⟩ }).spent := by
      rintro x (rfl | hx)
      · refine ⟨hlt, fun i hi => ?_⟩
        obtain ⟨hic, hi⟩ := (holds_setCall ready_ne_saving).mp hi
        exact hic (h.distinct i c x hi mine)
      · exact spent_mono ready_ne_saving hx
    rw [view_of_calls (u := { s.setCall c (.ready k') with row := ⟨new, s.row.version + 1⟩ })
      (x := .ready k') rfl]
    exact .save (point_saving hc) hb fresh ho grown
  | @lose c k d v new k' hc hv =>
    obtain ⟨_, _, b, _, _, hb, _⟩ := h.worked_out c k d v new k' hc
    rw [view_of_calls (s := s) (c := c) (x := .ready (P.conflict k)) rfl]
    exact .conflict (point_saving hc) hb (spent_mono ready_ne_saving)
  | @act c k w k' e' hc ha =>
    have same : (view { s.setCall c (.ready k') with env := e' }).spent = (view s).spent := by
      refine Set.Subset.antisymm ?_ (spent_mono ready_ne_saving)
      rintro d ⟨hd, hn⟩
      refine ⟨hd, fun i hi => ?_⟩
      have hic : i ≠ c := by
        rintro rfl
        obtain ⟨_, _, _, _, hi⟩ := hi
        rw [hc] at hi
        cases hi
      exact hn i ((holds_setCall ready_ne_saving).mpr ⟨hic, hi⟩)
    rw [view_of_calls (u := { s.setCall c (.ready k') with env := e' }) (x := .ready k') rfl,
      same]
    exact .act (point_ready hc) ha
  | @crash c =>
    rw [view_of_calls (s := s) (c := c) (x := .crashed) rfl]
    exact .crash (spent_mono crashed_ne_saving)

theorem step_coherent (h : Coherent P s) (hst : Step P s l u) : Coherent P u :=
  coherent_move h (step_move hst)

theorem step_atomic (h : Coherent P s)
    (hst : Step P s l u) : AtomicStep P (view s) (event P s l) (view u) :=
  atomic_move h (step_move hst)

section Rules

variable {I Q : View α κ ε ι → Prop} {G : View α κ ε ι → Event ω ι → Prop}

theorem reachable_view {Start : State α κ ε ι → Prop} (quiet : ∀ s, Start s → Quiet s)
    (start : ∀ s, Start s → I (view s)) (step : ∀ v e w, I v → AtomicStep P v e w → I w)
    (h : Reachable Start (Step P) s) : Coherent P s ∧ I (view s) := by
  refine reachable_invariant (I := fun s => Coherent P s ∧ I (view s)) ?_ ?_ h
  · intro s hs
    exact ⟨(quiet s hs).coherent, start s hs⟩
  · rintro s l u ⟨hc, hi⟩ hst
    exact ⟨step_coherent hc hst, step _ _ _ hi (step_atomic hc hst)⟩

variable {tr : List (Label ω ι × State α κ ε ι)}

theorem always_view {R : View α κ ε ι → Event ω ι → View α κ ε ι → Prop}
    (step : ∀ v e w, I v → AtomicStep P v e w → G v e → I w)
    (holds : ∀ v e w, I v → AtomicStep P v e w → G v e → R v e w) (hq : Quiet s)
    (hi : I (view s)) (hr : Run (Step P) s tr)
    (hg : EveryStep (fun s l => G (view s) (event P s l)) s tr) :
    Always (fun s => I (view s)) s tr ∧
      EveryStep (fun s l => ∀ u, Step P s l u → R (view s) (event P s l) (view u)) s tr := by
  have hstep : ∀ s l u, Coherent P s ∧ I (view s) → Step P s l u →
      G (view s) (event P s l) → Coherent P u ∧ I (view u) := by
    rintro s l u ⟨hc, hi⟩ hst hg
    exact ⟨step_coherent hc hst, step _ _ _ hi (step_atomic hc hst) hg⟩
  refine ⟨(always_of_everyStep hstep ⟨hq.coherent, hi⟩ hr hg).mono fun _ h => h.2, ?_⟩
  refine everyStep_of_allowed hstep ?_ ⟨hq.coherent, hi⟩ hr hg
  rintro s l ⟨hc, hi⟩ hg u hst
  exact holds _ _ _ hi (step_atomic hc hst) hg

theorem always_view_of_step (step : ∀ v e w, I v → AtomicStep P v e w → G v e → I w)
    (hq : Quiet s) (hi : I (view s)) (hr : Run (Step P) s tr)
    (hg : EveryStep (fun s l => G (view s) (event P s l)) s tr) :
    Always (fun s => I (view s)) s tr :=
  (always_view (R := fun _ _ _ => True) step (fun _ _ _ _ _ _ => trivial) hq hi hr hg).1

theorem always_view_iff (step : ∀ v e w, I v → AtomicStep P v e w → G v e → I w)
    (safe : ∀ v, I v → Q v) (broken : ∀ v e w, I v → AtomicStep P v e w → ¬ G v e → ¬ Q w)
    (hq : Quiet s) (hi : I (view s)) (hr : Run (Step P) s tr) :
    Always (fun s => Q (view s)) s tr ↔ EveryStep (fun s l => G (view s) (event P s l)) s tr := by
  refine always_iff_everyStep (I := fun s => Coherent P s ∧ I (view s)) ?_ ?_ ?_
    ⟨hq.coherent, hi⟩ hr
  · rintro s l u ⟨hc, hi⟩ hst hg
    exact ⟨step_coherent hc hst, step _ _ _ hi (step_atomic hc hst) hg⟩
  · exact fun s h => safe _ h.2
  · rintro s l u ⟨hc, hi⟩ hst hn
    exact broken _ _ _ hi (step_atomic hc hst) hn

end Rules

section Alone

variable {t : State α κ ε ι}

def Label.caller : Label ω ι → ι
  | .read c => c
  | .write c => c
  | .act c _ => c
  | .crash c => c

/-- Steps of call `c` alone lead from one state to the other. -/
def Alone (P : Protocol α κ ε ω) (c : ι) (s u : State α κ ε ι) : Prop :=
  ∃ tr, Run (Step P) s tr ∧ (∀ x ∈ tr, x.1.caller = c) ∧ lastState s tr = u

theorem Alone.trans (h : Alone P c s t) (h' : Alone P c t u) : Alone P c s u := by
  obtain ⟨tr, hr, hc, rfl⟩ := h
  obtain ⟨tr', hr', hc', rfl⟩ := h'
  refine ⟨tr ++ tr', hr.append hr', fun x hx => ?_, lastState_append _ _ _⟩
  rcases List.mem_append.mp hx with hx | hx
  · exact hc x hx
  · exact hc' x hx

theorem Alone.step {l : Label ω ι} (h : Step P s l u) (hl : l.caller = c) : Alone P c s u :=
  ⟨[(l, u)], ⟨h, trivial⟩, by simpa using hl, rfl⟩

variable {q : κ}

theorem Alone.answer {b : ℕ → ε → α → Outcome α κ} (hc : s.calls c = .ready k)
    (hb : P.body k = some b) (ho : b s.draws s.env s.row.value = .answer q) :
    ∃ u, Alone P c s u ∧ u.row = s.row ∧ u.env = s.env ∧ u.calls c = .ready q := by
  refine ⟨{ s.setCall c (.ready q) with draws := s.draws + 1 },
    .step (l := .read c) ?_ rfl, rfl, rfl, ?_⟩
  · simp [Step, next, hc, hb, ho]
  · simp

theorem Alone.save {a : α} {b : ℕ → ε → α → Outcome α κ} (hc : s.calls c = .ready k)
    (hb : P.body k = some b) (ho : b s.draws s.env s.row.value = .save a q) :
    ∃ u, Alone P c s u ∧ u.row.value = a ∧ u.env = s.env ∧ u.calls c = .ready q := by
  let t : State α κ ε ι :=
    { s.setCall c (.saving k s.draws s.row.version a q) with draws := s.draws + 1 }
  have hread : Step P s (.read c) t := by simp [Step, next, hc, hb, ho, t]
  have hwrite : Step P t (.write c)
      { t.setCall c (.ready q) with row := ⟨a, s.row.version + 1⟩ } := by
    simp [Step, next, t]
  exact ⟨_, (Alone.step hread rfl).trans (.step hwrite rfl), rfl, rfl, by simp⟩

theorem Alone.act {w : ω} {e : ε} (hc : s.calls c = .ready k) (ha : P.act k w s.env = some (q, e)) :
    ∃ u, Alone P c s u ∧ u.row = s.row ∧ u.env = e ∧ u.calls c = .ready q := by
  refine ⟨{ s.setCall c (.ready q) with env := e }, .step (l := .act c w) ?_ rfl, rfl, rfl, ?_⟩
  · simp [Step, next, hc, ha]
  · simp

theorem Coherent.replace (h : Coherent P s) (c : ι) (k : κ) : Coherent P (s.setCall c (.ready k)) :=
  h.release ready_ne_saving rfl (le_refl _) (Or.inl rfl)

theorem Alone.view_invariant {I : View α κ ε ι → Prop}
    (step : ∀ v e w, I v → AtomicStep P v e w → I w) (hc : Coherent P s) (hi : I (view s))
    (h : Alone P c s u) : I (view u) := by
  obtain ⟨tr, hr, _, rfl⟩ := h
  refine (always_of_invariant (I := fun s => Coherent P s ∧ I (view s)) ?_ ⟨hc, hi⟩ hr).last.2
  rintro s l u ⟨hc, hi⟩ hst
  exact ⟨step_coherent hc hst, step _ _ _ hi (step_atomic hc hst)⟩

end Alone

end OptimisticTransactions

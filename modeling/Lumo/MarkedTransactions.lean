import Mathlib.Data.List.Nodup
import Lumo.Interleavings

/-! # Deliveries that are marked in the transaction that applies them

A delivery looks for its mark, reads the row, works out what to write, marks its key, saves under
the version it read, and commits the mark and the row together. A statement that would wait for
another transaction goes on here, and the later of the two commits fails. -/
namespace MarkedTransactions

open Interleavings LabelledRuns

/-- What is done with a delivery: its key, its effect on the value that is read, which draws from
its environment, and how that is written over the value. -/
structure Handler (α β γ κ ε τ ω : Type*) where
  key : β → κ
  apply : β → ω → α → Except ε γ
  write : γ → α → Except τ α
  marked : β → τ
  lost : γ → τ

inductive Answer (ε τ : Type*) where
  | recorded
  | duplicate
  | refused (e : ε)
  | threw (t : τ)

inductive Point (α β γ ε τ : Type*) where
  | received (d : β)
  | looked (d : β) (duplicate : Bool)
  | marking (d : β) (version : ℕ) (new : γ)
  | saving (d : β) (version : ℕ) (new : γ)
  | committing (d : β) (version : ℕ) (new : γ) (value : α)
  | finished (d : β) (answer : Answer ε τ)

/-- A statement throws, or a commit is carried out and its answer is lost. -/
inductive Choice (τ ω : Type*) where
  | proceeds (drawn : ω)
  | fails (t : τ)
  | lands (t : τ)

/-- What is stored; `applied` are the deliveries that were committed, in order. -/
structure Store (α β κ : Type*) where
  value : α
  version : ℕ
  marks : List κ
  applied : List β

variable {α β γ κ ε τ ω ι : Type*} [DecidableEq κ] [DecidableEq ι]

def Store.commit (a : Store α β κ) (H : Handler α β γ κ ε τ ω) (d : β) (value : α) :
    Store α β κ :=
  ⟨value, a.version + 1, a.marks ++ [H.key d], a.applied ++ [d]⟩

/-- The delivery of a transaction that is open. -/
def Point.open : Point α β γ ε τ → Option β
  | received d => some d
  | looked d _ => some d
  | marking d _ _ => some d
  | saving d _ _ => some d
  | committing d _ _ _ => some d
  | finished _ _ => none

/-- What stands against a commit. -/
def Store.blocked (a : Store α β κ) (H : Handler α β γ κ ε τ ω) (d : β) (version : ℕ) (new : γ) :
    Option τ :=
  if H.key d ∈ a.marks then some (H.marked d)
  else if version ≠ a.version then some (H.lost new)
  else none

def commitTurn (H : Handler α β γ κ ε τ ω) (d : β) (version : ℕ) (new : γ) (value : α)
    (answer : Answer ε τ) (a : Store α β κ) : Point α β γ ε τ × Store α β κ :=
  match a.blocked H d version new with
  | some t => (.finished d (.threw t), a)
  | none => (.finished d answer, a.commit H d value)

/-- A delivery that has thrown is delivered again. -/
def turn (H : Handler α β γ κ ε τ ω) : Program (Store α β κ) (Point α β γ ε τ) (Choice τ ω) :=
  fun point choice a =>
    match choice with
    | .fails t => point.open.map fun d => (.finished d (.threw t), a)
    | .lands t =>
      match point with
      | .committing d version new value => some (commitTurn H d version new value (.threw t) a)
      | _ => none
    | .proceeds drawn =>
      match point with
      | .received d => some (.looked d (H.key d ∈ a.marks), a)
      | .looked d duplicate =>
        if duplicate then some (.finished d .duplicate, a)
        else match H.apply d drawn a.value with
          | .error e => some (.finished d (.refused e), a)
          | .ok new => some (.marking d a.version new, a)
      | .marking d version new =>
        if H.key d ∈ a.marks then some (.finished d (.threw (H.marked d)), a)
        else some (.saving d version new, a)
      | .saving d version new =>
        if version ≠ a.version then some (.finished d (.threw (H.lost new)), a)
        else match H.write new a.value with
          | .error t => some (.finished d (.threw t), a)
          | .ok value => some (.committing d version new value, a)
      | .committing d version new value => some (commitTurn H d version new value .recorded a)
      | .finished d (.threw _) => some (.received d, a)
      | .finished _ _ => none

abbrev Deliveries (α β γ κ ε τ ι : Type*) := State (Store α β κ) (Point α β γ ε τ) ι

def Effect (H : Handler α β γ κ ε τ ω) (d : β) (value value' : α) : Prop :=
  ∃ drawn new, H.apply d drawn value = .ok new ∧ H.write new value = .ok value'

/-- While the row has the version that was read, what was worked out is the effect on it. -/
def Fits (H : Handler α β γ κ ε τ ω) (a : Store α β κ) : Point α β γ ε τ → Prop
  | .marking d version new =>
    version ≤ a.version ∧ (version = a.version → ∃ drawn, H.apply d drawn a.value = .ok new)
  | .saving d version new =>
    version ≤ a.version ∧ (version = a.version → ∃ drawn, H.apply d drawn a.value = .ok new)
  | .committing d version _ value =>
    version ≤ a.version ∧ (version = a.version → Effect H d a.value value)
  | _ => True

/-- Every delivery that was applied is marked, and no other; none was applied twice. -/
structure Recorded (H : Handler α β γ κ ε τ ω) (a : Store α β κ) : Prop where
  marks : a.marks = a.applied.map H.key
  nodup : (a.applied.map H.key).Nodup

def Choice.commits : Choice τ ω → Prop
  | proceeds _ => True
  | fails _ => False
  | lands _ => True

/-- What a turn does to the store. -/
inductive Turned (H : Handler α β γ κ ε τ ω) (a : Store α β κ) :
    Point α β γ ε τ → Choice τ ω → Point α β γ ε τ → Store α β κ → Prop where
  | nothing {k choice k'} : Fits H a k' → Turned H a k choice k' a
  | committed {d new value choice answer} : choice.commits → H.key d ∉ a.marks →
      Effect H d a.value value →
      (answer = .recorded ∨ ∃ t, choice = .lands t ∧ answer = .threw t) →
      Turned H a (.committing d a.version new value) choice (.finished d answer)
        (a.commit H d value)

section Turns

variable {H : Handler α β γ κ ε τ ω} {a a' : Store α β κ} {k k' : Point α β γ ε τ}
  {choice : Choice τ ω}

variable {d : β} {value : α}

theorem commitTurn_turned {version : ℕ} {new : γ} {answer : Answer ε τ}
    (hfits : Fits H a (.committing d version new value)) (hcommits : choice.commits)
    (hanswer : answer = .recorded ∨ ∃ t, choice = .lands t ∧ answer = .threw t)
    (h : commitTurn H d version new value answer a = (k', a')) :
    Turned H a (.committing d version new value) choice k' a' := by
  rw [commitTurn, Store.blocked] at h
  by_cases hmarked : H.key d ∈ a.marks
  · rw [if_pos hmarked] at h
    cases h
    exact .nothing trivial
  · rw [if_neg hmarked] at h
    by_cases hversion : version = a.version
    · subst hversion
      rw [if_neg (not_not_intro rfl)] at h
      cases h
      exact .committed hcommits hmarked (hfits.2 rfl) hanswer
    · rw [if_pos hversion] at h
      cases h
      exact .nothing trivial

theorem turn_turned (hfits : Fits H a k) (h : turn H k choice a = some (k', a')) :
    Turned H a k choice k' a' := by
  cases choice with
  | fails t =>
    obtain ⟨d, -, hd⟩ := Option.map_eq_some_iff.mp h
    cases hd
    exact .nothing trivial
  | lands t =>
    cases k with
    | committing d version new value =>
      exact commitTurn_turned hfits trivial (Or.inr ⟨t, rfl, rfl⟩) (Option.some.inj h)
    | _ => cases h
  | proceeds drawn =>
    cases k with
    | received d =>
      cases h
      exact .nothing trivial
    | looked d duplicate =>
      simp only [turn] at h
      split at h
      · cases h
        exact .nothing trivial
      · split at h
        · cases h
          exact .nothing trivial
        · rename_i new happly
          cases h
          exact .nothing ⟨le_refl _, fun _ => ⟨drawn, happly⟩⟩
    | marking d version new =>
      simp only [turn] at h
      split at h
      · cases h
        exact .nothing trivial
      · cases h
        exact .nothing hfits
    | saving d version new =>
      simp only [turn] at h
      split at h
      · cases h
        exact .nothing trivial
      · rename_i hversion
        split at h
        · cases h
          exact .nothing trivial
        · rename_i value hwrite
          cases h
          refine .nothing ⟨hfits.1, fun heq => ?_⟩
          obtain ⟨drawn, happly⟩ := hfits.2 heq
          exact ⟨drawn, new, happly, hwrite⟩
    | committing d version new value =>
      exact commitTurn_turned hfits trivial (Or.inl rfl) (Option.some.inj h)
    | finished d answer =>
      cases answer with
      | threw t =>
        cases h
        exact .nothing trivial
      | _ => cases h

omit [DecidableEq κ] in
theorem Fits.commit (h : Fits H a k) : Fits H (a.commit H d value) k := by
  have older : ∀ {version : ℕ} {p : Prop}, version ≤ a.version →
      version ≤ (a.commit H d value).version ∧ (version = (a.commit H d value).version → p) := by
    intro version p hle
    refine ⟨Nat.le_succ_of_le hle, fun heq => ?_⟩
    rw [heq] at hle
    exact absurd hle (Nat.not_succ_le_self _)
  cases k with
  | marking | saving | committing => exact older h.1
  | _ => trivial

omit [DecidableEq κ] in
theorem Recorded.commit (h : Recorded H a) (hd : H.key d ∉ a.marks) :
    Recorded H (a.commit H d value) := by
  have happlied : (a.commit H d value).applied.map H.key = a.applied.map H.key ++ [H.key d] := by
    rw [Store.commit, List.map_append, List.map_singleton]
  constructor
  · rw [happlied, ← h.marks]
    rfl
  · rw [happlied, ← h.marks]
    refine List.nodup_append.mpr ⟨h.marks ▸ h.nodup, List.nodup_singleton _, ?_⟩
    rintro key hkey _ hlast rfl
    exact hd (List.mem_singleton.mp hlast ▸ hkey)

theorem keeps : Keeps (turn H) (Recorded H) (Fits H) := by
  intro a k choice k' a' hi hj h
  cases turn_turned hj h with
  | nothing hfits => exact ⟨hi, hfits, fun _ hother => hother⟩
  | committed _ hmarked => exact ⟨hi.commit hmarked, trivial, fun _ hother => hother.commit⟩

end Turns

section Runs

variable {H : Handler α β γ κ ε τ ω} {s u : Deliveries α β γ κ ε τ ι}
  {l : Label (Choice τ ω) ι}

abbrev Sound (H : Handler α β γ κ ε τ ω) (s : Deliveries α β γ κ ε τ ι) : Prop :=
  Holds (Recorded H) (Fits H) s

theorem sound_step (s : Deliveries α β γ κ ε τ ι) (l : Label (Choice τ ω) ι)
    (u : Deliveries α β γ κ ε τ ι) (h : Sound H s) (hst : Step (turn H) s l u) : Sound H u :=
  h.step keeps hst

/-- What a step leaves: only a commit changes anything, and it is of the mark and of the effect;
a delivery that is refused, that is a duplicate or that is rolled back has changed nothing. -/
structure Whole (H : Handler α β γ κ ε τ ω) (s : Deliveries α β γ κ ε τ ι)
    (l : Label (Choice τ ω) ι) (u : Deliveries α β γ κ ε τ ι) : Prop where
  together : u.shared ≠ s.shared → ∃ d value, H.key d ∉ s.shared.marks ∧
    Effect H d s.shared.value value ∧ u.shared = s.shared.commit H d value
  refused : ∀ d e, (u.processes l.process).point = .finished d (.refused e) → u.shared = s.shared
  duplicate : ∀ d, (u.processes l.process).point = .finished d .duplicate → u.shared = s.shared
  rolledBack : ∀ d t, (u.processes l.process).point = .finished d (.threw t) →
    (∀ c t', l ≠ .turn c (.lands t')) → u.shared = s.shared

omit [DecidableEq κ] [DecidableEq ι] in
theorem whole_of_same (h : u.shared = s.shared) : Whole H s l u :=
  ⟨fun hne => absurd h hne, fun _ _ _ => h, fun _ _ => h, fun _ _ _ _ => h⟩

theorem whole_step (h : Sound H s) (hst : Step (turn H) s l u) : Whole H s l u := by
  cases step_move hst with
  | @turn c k choice k' shared hc hk =>
    have hfits := h.points c
    rw [hc] at hfits
    cases turn_turned hfits hk with
    | nothing => exact whole_of_same rfl
    | @committed d new value _ answer hcommits hmarked heffect hanswer =>
      have hpoint : ((s.set c (.live (.finished d answer)) (s.shared.commit H d value)).processes
          c).point = .finished d answer := by
        rw [set_processes_self]
        rfl
      refine ⟨fun _ => ⟨d, value, hmarked, heffect, rfl⟩, ?_, ?_, ?_⟩
      · intro d' e hfinished
        rw [Label.process, hpoint] at hfinished
        cases hfinished
        rcases hanswer with hanswer | ⟨t, -, hanswer⟩ <;> cases hanswer
      · intro d' hfinished
        rw [Label.process, hpoint] at hfinished
        cases hfinished
        rcases hanswer with hanswer | ⟨t, -, hanswer⟩ <;> cases hanswer
      · intro d' t hfinished hlands
        rw [Label.process, hpoint] at hfinished
        cases hfinished
        rcases hanswer with hanswer | ⟨t', hchoice, -⟩
        · cases hanswer
        · subst hchoice
          exact absurd rfl (hlands c t')
  | crash => exact whole_of_same rfl

/-- Whatever the step commits is good on the value that is stored. -/
def Allowed (H : Handler α β γ κ ε τ ω) (Good : β → α → Prop) (s : Deliveries α β γ κ ε τ ι) :
    Label (Choice τ ω) ι → Prop
  | .turn c choice => choice.commits → ∀ d new value,
      s.processes c = .live (.committing d s.shared.version new value) →
      H.key d ∉ s.shared.marks → Good d s.shared.value
  | .crash _ => True

variable {a a' : Store α β κ} {choice : Choice τ ω} {d : β} {new : γ} {value : α}
  {tr : List (Label (Choice τ ω) ι × Deliveries α β γ κ ε τ ι)} {k' : Point α β γ ε τ}

omit [DecidableEq ι] in
theorem turn_commits (hcommits : choice.commits) (hmarked : H.key d ∉ a.marks) :
    ∃ answer, turn H (.committing d a.version new value) choice a =
      some (.finished d answer, a.commit H d value) := by
  have hblocked : a.blocked H d a.version new = none := by
    rw [Store.blocked, if_neg hmarked, if_neg (not_not_intro rfl)]
  cases choice with
  | fails t => exact absurd hcommits id
  | _ =>
    simp only [turn, commitTurn, hblocked]
    exact ⟨_, rfl⟩

/-- A property that a commit keeps exactly when its delivery is good. `I` is what every commit
keeps. -/
theorem always_iff {I Q : Store α β κ → Prop} {Good : β → α → Prop}
    (invariant : ∀ a d value, I a → Effect H d a.value value → I (a.commit H d value))
    (kept : ∀ a d value, I a → Recorded H a → Q a → H.key d ∉ a.marks →
      Effect H d a.value value → Good d a.value → Q (a.commit H d value))
    (broken : ∀ a d value, I a → Recorded H a → Q a → H.key d ∉ a.marks →
      Effect H d a.value value → ¬ Good d a.value → ¬ Q (a.commit H d value)) (hs : Sound H s)
    (hi : I s.shared) (hq : Q s.shared) (hr : Run (Step (turn H)) s tr) :
    Always (fun s => Q s.shared) s tr ↔ EveryStep (Allowed H Good) s tr := by
  refine always_iff_everyStep (I := fun s => Sound H s ∧ I s.shared ∧ Q s.shared) ?_
    (fun s h => h.2.2) ?_ ⟨hs, hi, hq⟩ hr
  · rintro s l u ⟨hs, hi, hq⟩ hst hgood
    refine ⟨sound_step s l u hs hst, ?_⟩
    cases step_move hst with
    | @turn c k choice k' shared hc hk =>
      have hfits := hs.points c
      rw [hc] at hfits
      cases turn_turned hfits hk with
      | nothing => exact ⟨hi, hq⟩
      | @committed d new value _ answer hcommits hmarked heffect hanswer =>
        have hallowed := hgood hcommits _ _ _ hc hmarked
        exact ⟨invariant _ _ _ hi heffect, kept _ _ _ hi hs.shared hq hmarked heffect hallowed⟩
    | crash => exact ⟨hi, hq⟩
  · rintro s l u ⟨hs, hi, hq⟩ hst hbad
    cases step_move hst with
    | @turn c k choice k' shared hc hk =>
      simp only [Allowed, not_forall] at hbad
      obtain ⟨hcommits, d, new, value, hcommitting, hmarked, hbad⟩ := hbad
      obtain rfl : Point.committing d s.shared.version new value = k := by
        rw [hc] at hcommitting
        exact (Process.live.inj hcommitting).symm
      have hfits := hs.points c
      rw [hc] at hfits
      have hcommitted : ∃ answer, turn H (.committing d s.shared.version new value) choice s.shared =
          some (.finished d answer, s.shared.commit H d value) := turn_commits hcommits hmarked
      obtain ⟨answer, hturn⟩ := hcommitted
      rw [hturn] at hk
      cases hk
      exact broken _ _ _ hi hs.shared hq hmarked (hfits.2 rfl) hbad
    | crash => exact absurd trivial hbad

def Point.delivery : Point α β γ ε τ → β
  | received d => d
  | looked d _ => d
  | marking d _ _ => d
  | saving d _ _ => d
  | committing d _ _ _ => d
  | finished d _ => d

omit [DecidableEq ι] in
theorem commitTurn_delivery {version : ℕ} {answer : Answer ε τ}
    (h : commitTurn H d version new value answer a = (k', a')) : k'.delivery = d := by
  rw [commitTurn] at h
  split at h <;> cases h <;> rfl

omit [DecidableEq ι] in
theorem turn_delivery {k : Point α β γ ε τ} (h : turn H k choice a = some (k', a')) :
    k'.delivery = k.delivery := by
  cases choice with
  | fails t =>
    obtain ⟨d, hopen, hd⟩ := Option.map_eq_some_iff.mp h
    cases hd
    cases k <;> cases hopen <;> rfl
  | lands t =>
    cases k with
    | committing => exact commitTurn_delivery (Option.some.inj h)
    | _ => cases h
  | proceeds drawn =>
    cases k with
    | received => cases h; rfl
    | looked =>
      simp only [turn] at h
      split at h
      · cases h; rfl
      · split at h <;> cases h <;> rfl
    | marking =>
      simp only [turn] at h
      split at h <;> cases h <;> rfl
    | saving =>
      simp only [turn] at h
      split at h
      · cases h; rfl
      · split at h <;> cases h <;> rfl
    | committing => exact commitTurn_delivery (Option.some.inj h)
    | finished d answer =>
      cases answer with
      | threw => cases h; rfl
      | _ => cases h

theorem step_delivery (hst : Step (turn H) s l u) (c : ι) :
    (u.processes c).point.delivery = (s.processes c).point.delivery := by
  cases step_move hst with
  | @turn d k choice k' shared hd hk =>
    by_cases hcd : c = d
    · subst hcd
      rw [set_processes_self, hd]
      exact turn_delivery hk
    · rw [set_processes_of_ne s hcd]
  | crash hd => rw [crashed_point s hd]

theorem allowed_of_deliveries (Fine : β → Prop) {I : α → Prop} {Good : β → α → Prop}
    (invariant : ∀ d value value', Fine d → I value → Effect H d value value' → I value')
    (good : ∀ d value, Fine d → I value → Good d value) (hs : Sound H s) (hi : I s.shared.value)
    (hfine : ∀ c, Fine (s.processes c).point.delivery) (hr : Run (Step (turn H)) s tr) :
    EveryStep (Allowed H Good) s tr := by
  refine everyStep_of_invariant (I := fun u => Sound H u ∧ I u.shared.value ∧
    ∀ c, Fine (u.processes c).point.delivery) ?_ ?_ ⟨hs, hi, hfine⟩ hr
  · rintro s l u ⟨hs, hi, hfine⟩ hst
    refine ⟨sound_step s l u hs hst, ?_, fun c => step_delivery hst c ▸ hfine c⟩
    cases step_move hst with
    | @turn c k choice k' shared hc hk =>
      have hfits := hs.points c
      rw [hc] at hfits
      cases turn_turned hfits hk with
      | nothing => exact hi
      | @committed d new value _ answer hcommits hmarked heffect hanswer =>
        have hd := hfine c
        rw [hc] at hd
        exact invariant d _ _ hd hi heffect
    | crash => exact hi
  · rintro s l ⟨hs, hi, hfine⟩
    cases l with
    | turn c choice =>
      intro _ d new value hc _
      have hd := hfine c
      rw [hc] at hd
      exact good d _ hd hi
    | crash => trivial

end Runs

end MarkedTransactions

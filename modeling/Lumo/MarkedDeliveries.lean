import Mathlib.Data.List.Nodup
import Mathlib.Logic.Function.Basic
import Lumo.LabelledRuns

/-! # Deliveries that are marked beside the transaction that applies them

A delivery reads the row, looks whether its key is marked, works out the new value, saves it under
the version it read and so locks the row, marks its key, and commits. The marks are kept outside
the transaction: a transaction that fails keeps its mark, and a restart loses them all. -/
namespace MarkedDeliveries

open LabelledRuns

structure Handler (α β κ ε : Type*) where
  key : β → κ
  check : β → Except ε Unit
  apply : β → α → Except ε α

inductive Answer (α ε : Type*) where
  | recorded (value : α)
  | duplicate (value : α)
  | refused (e : ε)
  | threw

inductive Point (α β ε : Type*) where
  | received (d : β)
  | looking (d : β) (version : ℕ) (value : α)
  | saving (d : β) (version : ℕ) (new : α)
  | marking (d : β) (new : α)
  | committing (d : β) (new : α)
  | finished (d : β) (answer : Answer α ε)
  | crashed

/-- `applied` are the keys of the deliveries that were committed, in order; `lock` is whose save
waits for its commit. -/
structure State (α β κ ε ι : Type*) where
  value : α
  version : ℕ
  marks : List κ
  applied : List κ
  lock : Option ι
  points : ι → Point α β ε

inductive Label (α ι : Type*) where
  | begin (c : ι)
  | look (c : ι)
  | save (c : ι)
  | mark (c : ι)
  | commit (c : ι)
  | fail (c : ι)
  | crash (c : ι)
  | restart
  | write (new : α)

/-- The delivery of a transaction that is open. -/
def Point.open {α β ε : Type*} : Point α β ε → Option β
  | looking d _ _ => some d
  | saving d _ _ => some d
  | marking d _ => some d
  | committing d _ => some d
  | _ => none

variable {α β κ ε ι : Type*} [DecidableEq κ] [DecidableEq ι]

def State.setPoint (s : State α β κ ε ι) (c : ι) (k : Point α β ε) : State α β κ ε ι :=
  { s with points := Function.update s.points c k }

def State.release (s : State α β κ ε ι) (c : ι) : State α β κ ε ι :=
  { s with lock := if s.lock = some c then none else s.lock }

/-- One step, when the label is enabled: a save waits while another holds the lock. `write` is
anyone else's committed write to the row. -/
def next (H : Handler α β κ ε) (s : State α β κ ε ι) : Label α ι → Option (State α β κ ε ι)
  | .begin c =>
    match s.points c with
    | .received d =>
      match H.check d with
      | .error e => some (s.setPoint c (.finished d (.refused e)))
      | .ok () => some (s.setPoint c (.looking d s.version s.value))
    | _ => none
  | .look c =>
    match s.points c with
    | .looking d version value =>
      if H.key d ∈ s.marks then some (s.setPoint c (.finished d (.duplicate value)))
      else match H.apply d value with
        | .error e => some (s.setPoint c (.finished d (.refused e)))
        | .ok new => some (s.setPoint c (.saving d version new))
    | _ => none
  | .save c =>
    match s.points c with
    | .saving d version new =>
      if s.lock.isSome then none
      else if version = s.version then
        some { s.setPoint c (.marking d new) with lock := some c }
      else some (s.setPoint c (.finished d .threw))
    | _ => none
  | .mark c =>
    match s.points c with
    | .marking d new =>
      some { s.setPoint c (.committing d new) with marks := s.marks ++ [H.key d] }
    | _ => none
  | .commit c =>
    match s.points c with
    | .committing d new =>
      some { s.setPoint c (.finished d (.recorded new)) with
        value := new, version := s.version + 1, applied := s.applied ++ [H.key d], lock := none }
    | _ => none
  | .fail c =>
    match (s.points c).open with
    | some d => some ((s.setPoint c (.finished d .threw)).release c)
    | none => none
  | .crash c => some ((s.setPoint c .crashed).release c)
  | .restart => some { s with marks := [], lock := none, points := fun _ => .crashed }
  | .write new =>
    if s.lock.isSome then none else some { s with value := new, version := s.version + 1 }

def Step (H : Handler α β κ ε) (s : State α β κ ε ι) (l : Label α ι) (u : State α β κ ε ι) : Prop :=
  next H s l = some u

/-- Everything a step can be. -/
inductive Move (H : Handler α β κ ε) (s : State α β κ ε ι) :
    Label α ι → State α β κ ε ι → Prop where
  | invalid {c d e} : s.points c = .received d →
      Move H s (.begin c) (s.setPoint c (.finished d (.refused e)))
  | read {c d} : s.points c = .received d →
      Move H s (.begin c) (s.setPoint c (.looking d s.version s.value))
  | duplicate {c d version value} : s.points c = .looking d version value →
      H.key d ∈ s.marks → Move H s (.look c) (s.setPoint c (.finished d (.duplicate value)))
  | refused {c d version value e} : s.points c = .looking d version value →
      H.key d ∉ s.marks → Move H s (.look c) (s.setPoint c (.finished d (.refused e)))
  | applied {c d version value new} : s.points c = .looking d version value →
      H.key d ∉ s.marks → H.apply d value = .ok new → Move H s (.look c) (s.setPoint c (.saving d version new))
  | saved {c d new} : s.points c = .saving d s.version new → s.lock = none →
      Move H s (.save c) { s.setPoint c (.marking d new) with lock := some c }
  | lost {c d version new} : s.points c = .saving d version new →
      Move H s (.save c) (s.setPoint c (.finished d .threw))
  | marked {c d new} : s.points c = .marking d new →
      Move H s (.mark c) { s.setPoint c (.committing d new) with marks := s.marks ++ [H.key d] }
  | committed {c d new} : s.points c = .committing d new →
      Move H s (.commit c) { s.setPoint c (.finished d (.recorded new)) with
        value := new, version := s.version + 1, applied := s.applied ++ [H.key d], lock := none }
  | failed {c d} : Move H s (.fail c) ((s.setPoint c (.finished d .threw)).release c)
  | crashed {c} : Move H s (.crash c) ((s.setPoint c .crashed).release c)
  | restarted : Move H s .restart { s with marks := [], lock := none, points := fun _ => .crashed }
  | written {new} : s.lock = none →
      Move H s (.write new) { s with value := new, version := s.version + 1 }

variable {H : Handler α β κ ε} {s u : State α β κ ε ι} {c : ι} {k : Point α β ε}

theorem step_move {l : Label α ι} (h : Step H s l u) : Move H s l u := by
  cases l with
  | begin c =>
    simp only [Step, next] at h
    split at h
    · rename_i d hc
      split at h <;> cases h
      · exact .invalid hc
      · exact .read hc
    · cases h
  | look c =>
    simp only [Step, next] at h
    split at h
    · rename_i d version value hc
      split at h
      · rename_i hmark
        cases h
        exact .duplicate hc hmark
      · rename_i hmark
        split at h
        · cases h
          exact .refused hc hmark
        · cases h
          rename_i hnew
          exact .applied hc hmark hnew
    · cases h
  | save c =>
    simp only [Step, next] at h
    split at h
    · rename_i d version new hc
      split at h
      · cases h
      · rename_i hlock
        split at h
        · rename_i hversion
          subst hversion
          cases h
          exact .saved hc (by simpa using hlock)
        · cases h
          exact .lost hc
    · cases h
  | mark c =>
    simp only [Step, next] at h
    split at h
    · rename_i d new hc
      cases h
      exact .marked hc
    · cases h
  | commit c =>
    simp only [Step, next] at h
    split at h
    · rename_i d new hc
      cases h
      exact .committed hc
    · cases h
  | fail c =>
    simp only [Step, next] at h
    split at h <;> cases h
    exact .failed
  | crash c =>
    cases h
    exact .crashed
  | restart =>
    cases h
    exact .restarted
  | write new =>
    simp only [Step, next] at h
    split at h
    · cases h
    · rename_i hlock
      cases h
      exact .written (by simpa using hlock)

/-- A duplicate has been applied, what is refused has not, and what is recorded is the effect on
the value that was stored. -/
structure LawfulStep (H : Handler α β κ ε) (s : State α β κ ε ι) (l : Label α ι)
    (u : State α β κ ε ι) : Prop where
  duplicate : ∀ c d value, l = .look c → u.points c = .finished d (.duplicate value) →
    H.key d ∈ s.applied
  refused : ∀ c d e, l = .look c → u.points c = .finished d (.refused e) → H.key d ∉ s.applied
  recorded : ∀ c d new, l = .commit c → u.points c = .finished d (.recorded new) →
    H.apply d s.value = .ok new ∧ u.value = new

def Lawful (H : Handler α β κ ε) (s : State α β κ ε ι) (l : Label α ι) : Prop :=
  ∀ u, Step H s l u → LawfulStep H s l u

/-- No transaction ends between its mark and its commit, no delivery looks for the mark of one that
stands there, and no restart loses a mark. -/
def Uninterrupted (H : Handler α β κ ε) (s : State α β κ ε ι) : Label α ι → Prop
  | .look c => ∀ d version value, s.points c = .looking d version value →
    ∀ c' d' new, s.points c' = .committing d' new → H.key d' ≠ H.key d
  | .fail c => ∀ d new, s.points c ≠ .committing d new
  | .crash c => ∀ d new, s.points c ≠ .committing d new
  | .restart => s.marks = []
  | _ => True

/-- What a point relies on: while the row has the version it read, the value is the one it read,
and the delivery has not been applied. -/
def Fits (H : Handler α β κ ε) (s : State α β κ ε ι) (c : ι) : Point α β ε → Prop
  | .looking _ version value => version ≤ s.version ∧ (version = s.version → value = s.value)
  | .saving d version new =>
    version ≤ s.version ∧
      (version = s.version → H.key d ∉ s.applied ∧ H.apply d s.value = .ok new)
  | .marking d new => s.lock = some c ∧ H.key d ∉ s.applied ∧ H.apply d s.value = .ok new
  | .committing d new =>
    s.lock = some c ∧ H.key d ∉ s.applied ∧ H.apply d s.value = .ok new ∧ H.key d ∈ s.marks
  | _ => True

structure Sound (H : Handler α β κ ε) (s : State α β κ ε ι) : Prop where
  nodup : s.applied.Nodup
  kept : ∀ k ∈ s.applied, k ∈ s.marks
  accounted : ∀ k ∈ s.marks, k ∈ s.applied ∨
    ∃ c d new, s.points c = .committing d new ∧ H.key d = k
  fits : ∀ c, Fits H s c (s.points c)

omit [DecidableEq κ] in
@[simp] theorem setPoint_points_self (s : State α β κ ε ι) (c : ι) (k : Point α β ε) :
    (s.setPoint c k).points c = k := Function.update_self _ _ _

omit [DecidableEq κ] in
theorem setPoint_points_of_ne (s : State α β κ ε ι) {c' : ι} (h : c' ≠ c) (k : Point α β ε) :
    (s.setPoint c k).points c' = s.points c' := Function.update_of_ne h _ _

omit [DecidableEq κ] in
theorem Sound.moved (h : Sound H s) (hpoints : u.points = (s.setPoint c k).points)
    (hnodup : u.applied.Nodup) (hkept : ∀ key ∈ u.applied, key ∈ u.marks)
    (haccounted : ∀ key ∈ u.marks, key ∈ u.applied ∨
      ∃ c d new, u.points c = .committing d new ∧ H.key d = key) (hk : Fits H u c k)
    (hothers : ∀ c' ≠ c, Fits H s c' (s.points c') → Fits H u c' (s.points c')) : Sound H u := by
  refine ⟨hnodup, hkept, haccounted, fun c' => ?_⟩
  by_cases heq : c' = c
  · subst heq
    rw [hpoints, setPoint_points_self]
    exact hk
  · rw [hpoints, setPoint_points_of_ne s heq]
    exact hothers c' heq (h.fits c')

omit [DecidableEq κ] in
theorem Sound.accounted_moved (h : Sound H s) (hc : ∀ d new, s.points c ≠ .committing d new) :
    ∀ key ∈ s.marks, key ∈ s.applied ∨
      ∃ c' d new, (s.setPoint c k).points c' = .committing d new ∧ H.key d = key := by
  intro key hkey
  refine (h.accounted key hkey).imp_right ?_
  rintro ⟨c', d, new, hc', hd⟩
  have hne : c' ≠ c := fun heq => hc d new (heq ▸ hc')
  exact ⟨c', d, new, (setPoint_points_of_ne s hne k).trans hc', hd⟩

omit [DecidableEq κ] in
theorem Sound.setPoint (h : Sound H s) (hc : ∀ d new, s.points c ≠ .committing d new)
    (hk : Fits H s c k) : Sound H (s.setPoint c k) :=
  h.moved rfl h.nodup h.kept (h.accounted_moved hc) hk fun _ _ hfits => hfits

omit [DecidableEq κ] in
theorem Sound.release (h : Sound H s) (hc : ∀ d new, s.points c ≠ .committing d new)
    (hk : Fits H ((s.setPoint c k).release c) c k) : Sound H ((s.setPoint c k).release c) := by
  refine h.moved rfl h.nodup h.kept (h.accounted_moved hc) hk fun c' hne hfits => ?_
  have hlock : s.lock = some c' → ((s.setPoint c k).release c).lock = some c' := by
    intro hlock
    have hother : s.lock ≠ some c := by
      rw [hlock]
      exact fun h => hne (Option.some.inj h)
    exact (if_neg hother).trans hlock
  cases hp : s.points c' with
  | looking | saving => rwa [hp] at hfits
  | marking | committing =>
    rw [hp] at hfits
    exact ⟨hlock hfits.1, hfits.2⟩
  | _ => trivial

omit [DecidableEq κ] [DecidableEq ι] in
theorem Fits.later (h : Fits H s c k) (hlock : s.lock ≠ some c)
    (hversion : u.version = s.version + 1) : Fits H u c k := by
  cases k with
  | looking d version value | saving d version new =>
    have hle : version ≤ s.version := h.1
    refine ⟨by omega, fun heq => ?_⟩
    omega
  | marking | committing => exact absurd h.1 hlock
  | _ => trivial

theorem sound_step (s : State α β κ ε ι) (l : Label α ι) (u : State α β κ ε ι) (h : Sound H s)
    (hst : Step H s l u) (ha : Uninterrupted H s l) : Sound H u := by
  cases step_move hst with
  | invalid hc => exact h.setPoint (by simp [hc]) trivial
  | read hc => exact h.setPoint (by simp [hc]) ⟨Nat.le_refl s.version, fun _ => rfl⟩
  | duplicate hc hmark | refused hc hmark => exact h.setPoint (by simp [hc]) trivial
  | @applied c d version value new hc hmark hnew =>
    have hfits := h.fits c
    rw [hc] at hfits
    refine h.setPoint (by simp [hc]) ⟨hfits.1, fun heq => ?_⟩
    exact ⟨fun happlied => hmark (h.kept _ happlied), hfits.2 heq ▸ hnew⟩
  | @saved c d new hc hlock =>
    have hfits := h.fits c
    rw [hc] at hfits
    refine h.moved rfl h.nodup h.kept (h.accounted_moved (by simp [hc])) ⟨rfl, hfits.2 rfl⟩ ?_
    intro c' _ hold
    cases hp : s.points c' with
    | marking | committing =>
      rw [hp] at hold
      rw [hold.1] at hlock
      cases hlock
    | looking | saving => rwa [hp] at hold
    | _ => trivial
  | lost hc => exact h.setPoint (by simp [hc]) trivial
  | @marked c d new hc =>
    have hfits := h.fits c
    rw [hc] at hfits
    have hmine : H.key d ∈ s.marks ++ [H.key d] := List.mem_append_right _ (List.mem_singleton_self _)
    refine h.moved rfl h.nodup (fun key hkey => List.mem_append_left _ (h.kept key hkey)) ?_
      ⟨hfits.1, hfits.2.1, hfits.2.2, hmine⟩ ?_
    · intro key hkey
      rcases List.mem_append.mp hkey with hkey | hkey
      · exact h.accounted_moved (by simp [hc]) key hkey
      · exact Or.inr ⟨c, d, new, setPoint_points_self _ _ _, (List.mem_singleton.mp hkey).symm⟩
    · intro c' _ hold
      cases hp : s.points c' with
      | committing =>
        rw [hp] at hold
        exact ⟨hold.1, hold.2.1, hold.2.2.1, List.mem_append_left _ hold.2.2.2⟩
      | looking | saving | marking => rwa [hp] at hold
      | _ => trivial
  | @committed c d new hc =>
    have hfits := h.fits c
    rw [hc] at hfits
    refine h.moved rfl ?_ ?_ ?_ trivial ?_
    · exact List.nodup_append.mpr ⟨h.nodup, List.nodup_singleton _, fun a ha b hb heq =>
        hfits.2.1 (by rw [← List.mem_singleton.mp hb, ← heq]; exact ha)⟩
    · intro key hkey
      rcases List.mem_append.mp hkey with hkey | hkey
      · exact h.kept key hkey
      · rw [List.mem_singleton.mp hkey]
        exact hfits.2.2.2
    · intro key hkey
      rcases h.accounted key hkey with hkey | ⟨c', d', new', hc', hd'⟩
      · exact Or.inl (List.mem_append_left _ hkey)
      · -- only the holder of the lock is about to commit
        have hfits' := h.fits c'
        rw [hc'] at hfits'
        obtain rfl : c' = c := Option.some.inj (hfits'.1.symm.trans hfits.1)
        rw [hc] at hc'
        cases hc'
        exact Or.inl (List.mem_append_right _ (List.mem_singleton.mpr hd'.symm))
    · intro c' hne hold
      refine hold.later (fun hlock => hne ?_) rfl
      exact Option.some.inj (hlock.symm.trans hfits.1)
  | failed | crashed => exact h.release ha trivial
  | restarted =>
    have happlied : s.applied = [] := by
      refine List.eq_nil_iff_forall_not_mem.mpr fun key hkey => ?_
      have hmark := h.kept key hkey
      rw [show s.marks = [] from ha] at hmark
      cases hmark
    refine ⟨h.nodup, ?_, fun key hkey => (by cases hkey), fun _ => trivial⟩
    intro key hkey
    rw [happlied] at hkey
    cases hkey
  | written hlock =>
    refine ⟨h.nodup, h.kept, h.accounted, fun c => (h.fits c).later ?_ rfl⟩
    rw [hlock]
    exact fun h => (by cases h)

omit [DecidableEq κ] [DecidableEq ι] in
theorem start_sound (hmarks : s.marks = []) (happlied : s.applied = [])
    (hpoints : ∀ c, ∃ d, s.points c = .received d) : Sound H s := by
  refine ⟨by rw [happlied]; exact List.nodup_nil, ?_, ?_, fun c => ?_⟩
  · intro key hkey
    rw [happlied] at hkey
    cases hkey
  · intro key hkey
    rw [hmarks] at hkey
    cases hkey
  · obtain ⟨d, hd⟩ := hpoints c
    rw [hd]
    trivial

theorem lawful_of_sound (s : State α β κ ε ι) (l : Label α ι) (h : Sound H s)
    (ha : Uninterrupted H s l) : Lawful H s l := by
  intro u hst
  constructor
  · rintro c d value rfl hu
    cases step_move hst with
    | @duplicate _ d' version value' hc hmark =>
      rw [setPoint_points_self] at hu
      cases hu
      refine (h.accounted _ hmark).resolve_right ?_
      rintro ⟨c', d', new, hc', hd'⟩
      exact ha d version value hc c' d' new hc' hd'
    | refused hc hmark | applied hc hmark hnew =>
      rw [setPoint_points_self] at hu
      cases hu
  · rintro c d e rfl hu
    cases step_move hst with
    | duplicate hc hmark =>
      rw [setPoint_points_self] at hu
      cases hu
    | refused hc hmark =>
      rw [setPoint_points_self] at hu
      cases hu
      exact fun happlied => hmark (h.kept _ happlied)
    | applied hc hmark hnew =>
      rw [setPoint_points_self] at hu
      cases hu
  · rintro c d new rfl hu
    cases step_move hst with
    | @committed _ d' new' hc =>
      have hfits := h.fits c
      rw [hc] at hfits
      change (s.setPoint c _).points c = _ at hu
      rw [setPoint_points_self] at hu
      cases hu
      exact ⟨hfits.2.2.1, rfl⟩

theorem lawful_run {tr : List (Label α ι × State α β κ ε ι)} (h : Sound H s)
    (hr : Run (Step H) s tr) (ha : EveryStep (Uninterrupted H) s tr) :
    Always (fun s => s.applied.Nodup) s tr ∧ EveryStep (Lawful H) s tr :=
  ⟨(always_of_everyStep sound_step h hr ha).mono fun _ h => h.nodup,
    everyStep_of_allowed sound_step lawful_of_sound h hr ha⟩

end MarkedDeliveries

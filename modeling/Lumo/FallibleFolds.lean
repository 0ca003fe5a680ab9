import Mathlib.Data.List.Pairwise
import Mathlib.Data.List.Perm.Subperm

/-! # Folds and maps over steps that may fail -/
namespace FallibleFolds

variable {α β γ : Type}

variable {ε : Type} {b : β} {l : List α} {a : α} {bs : List β} {f : α → Option β}

theorem foldlM_invariant {f : β → α → Option β} {I : β → Prop} {c : β}
    (step : ∀ b a c, a ∈ l → I b → f b a = some c → I c) (h0 : I b) (h : l.foldlM f b = some c) :
    I c := by
  induction l generalizing b with
  | nil =>
    cases h
    exact h0
  | cons a rest ih =>
    rw [List.foldlM_cons] at h
    obtain ⟨d, hd, hrest⟩ := Option.bind_eq_some_iff.mp h
    apply ih _ _ hrest
    · intro b a c ha hb hf
      exact step b a c (List.mem_cons_of_mem _ ha) hb hf
    · exact step b a d (by simp) h0 hd

theorem foldlM_isSome {f : β → α → Option β} (step : ∀ a ∈ l, ∀ b, (f b a).isSome) (b : β) :
    (l.foldlM f b).isSome := by
  induction l generalizing b with
  | nil => rfl
  | cons a rest ih =>
    obtain ⟨c, hc⟩ := Option.isSome_iff_exists.mp (step a (by simp) b)
    rw [List.foldlM_cons, hc]
    exact ih (fun a ha => step a (List.mem_cons_of_mem _ ha)) c

theorem foldlM_eq_none {f : β → α → Option β} (ha : a ∈ l) (step : ∀ b, f b a = none) (b : β) :
    l.foldlM f b = none := by
  induction l generalizing b with
  | nil => cases ha
  | cons x rest ih =>
    rw [List.foldlM_cons]
    rcases List.mem_cons.mp ha with rfl | hrest
    · rw [step]
      rfl
    · cases f b x with
      | none => rfl
      | some c => exact ih hrest c

theorem mapM_ok {f : α → Except ε β} {g : α → β} (step : ∀ a ∈ l, f a = .ok (g a)) :
    l.mapM f = .ok (l.map g) := by
  induction l with
  | nil => rfl
  | cons a rest ih =>
    rw [List.mapM_cons, step a List.mem_cons_self,
      ih fun a ha => step a (List.mem_cons_of_mem _ ha)]
    rfl

theorem mapM_written {read : γ → Except ε β} {write : α → γ} {g : α → β}
    (h : ∀ a ∈ l, read (write a) = .ok (g a)) : (l.map write).mapM read = .ok (l.map g) := by
  rw [List.mapM_map]
  exact mapM_ok h

theorem forall₂_of_mapM {f : α → Except ε β} (h : l.mapM f = .ok bs) :
    List.Forall₂ (fun a b => f a = .ok b) l bs := by
  induction l generalizing bs with
  | nil =>
    cases h
    exact .nil
  | cons a rest ih =>
    rw [List.mapM_cons] at h
    cases ha : f a with
    | error e =>
      rw [ha] at h
      cases h
    | ok b =>
      rw [ha] at h
      cases hrest : rest.mapM f with
      | error e =>
        rw [hrest] at h
        cases h
      | ok bs' =>
        rw [hrest] at h
        cases h
        exact .cons ha (ih hrest)

theorem ok_of_mapM {f : α → Except ε β} (h : l.mapM f = .ok bs) (ha : a ∈ l) :
    ∃ b, f a = .ok b := by
  have hsteps := forall₂_of_mapM h
  clear h
  induction hsteps with
  | nil => cases ha
  | cons hstep _ ih =>
    rcases List.mem_cons.mp ha with rfl | ha
    · exact ⟨_, hstep⟩
    · exact ih ha

theorem eq_map_of_mapM {f : α → Except ε β} {g : α → β} (step : ∀ a b, f a = .ok b → b = g a)
    (h : l.mapM f = .ok bs) : bs = l.map g := by
  have hsteps := forall₂_of_mapM h
  clear h
  induction hsteps with
  | nil => rfl
  | cons hstep _ ih => rw [List.map_cons, step _ _ hstep, ih]

theorem eq_foldl_of_foldlM {f : β → α → Except ε β} {g : β → α → β} {c : β}
    (step : ∀ b a c, f b a = .ok c → c = g b a) (h : l.foldlM f b = .ok c) : c = l.foldl g b := by
  induction l generalizing b with
  | nil =>
    cases h
    rfl
  | cons a rest ih =>
    rw [List.foldlM_cons] at h
    cases ha : f b a with
    | error e =>
      rw [ha] at h
      cases h
    | ok d =>
      rw [ha] at h
      rw [List.foldl_cons, ← step b a d ha]
      exact ih h

theorem mapM_isSome (step : ∀ a ∈ l, (f a).isSome) : (l.mapM f).isSome := by
  induction l with
  | nil => rfl
  | cons a rest ih =>
    obtain ⟨b, hb⟩ := Option.isSome_iff_exists.mp (step a (by simp))
    obtain ⟨bs, hbs⟩ :=
      Option.isSome_iff_exists.mp (ih fun a ha => step a (List.mem_cons_of_mem _ ha))
    simp [List.mapM_cons, hb, hbs]

theorem mapM_map {g : β → α} (hg : ∀ a b, f a = some b → g b = a) (h : l.mapM f = some bs) :
    bs.map g = l := by
  induction l generalizing bs with
  | nil =>
    cases h
    rfl
  | cons a rest ih =>
    rw [List.mapM_cons] at h
    obtain ⟨b, hb, h⟩ := Option.bind_eq_some_iff.mp h
    obtain ⟨cs, hcs, h⟩ := Option.bind_eq_some_iff.mp h
    cases h
    rw [List.map_cons, hg a b hb, ih hcs]

theorem map_of_mapM (h : l.mapM f = some bs) : l.map f = bs.map some := by
  induction l generalizing bs with
  | nil =>
    cases h
    rfl
  | cons a rest ih =>
    rw [List.mapM_cons] at h
    obtain ⟨b, hb, h⟩ := Option.bind_eq_some_iff.mp h
    obtain ⟨cs, hcs, h⟩ := Option.bind_eq_some_iff.mp h
    cases h
    rw [List.map_cons, List.map_cons, hb, ih hcs]

theorem mapM_mem (h : l.mapM f = some bs) (ha : a ∈ l) : ∃ b ∈ bs, f a = some b := by
  have hmem := List.mem_map_of_mem (f := f) ha
  rw [map_of_mapM h] at hmem
  obtain ⟨b, hb, hsome⟩ := List.mem_map.mp hmem
  exact ⟨b, hb, hsome.symm⟩

theorem mem_of_mapM (h : l.mapM f = some bs) (hb : b ∈ bs) : ∃ a ∈ l, f a = some b :=
  List.mem_map.mp (map_of_mapM h ▸ List.mem_map_of_mem hb)

theorem mapM_eq_none (ha : a ∈ l) (h : f a = none) : l.mapM f = none := by
  rw [Option.eq_none_iff_forall_ne_some]
  intro bs hbs
  obtain ⟨b, -, hb⟩ := mapM_mem hbs ha
  rw [h] at hb
  cases hb

theorem eq_of_nodup_filterMap {f : α → Option γ} (h : (l.filterMap f).Nodup) {b : α} {c : γ}
    (ha : a ∈ l) (hb : b ∈ l) (hfa : f a = some c) (hfb : f b = some c) : a = b := by
  rw [List.Nodup, List.pairwise_filterMap] at h
  have hapart : Std.Symm fun x y => ∀ d, f x = some d → ∀ d', f y = some d' → d ≠ d' :=
    ⟨fun x y hxy d hd d' hd' => (hxy d' hd' d hd).symm⟩
  by_contra hne
  exact h.forall ha hb hne c hfa c hfb rfl

end FallibleFolds

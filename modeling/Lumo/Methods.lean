import Mathlib.Data.List.Basic

/-! # Methods that change an object and may throw

What was done before the throw stays done, as in the objects of the source. -/
namespace Methods

variable {ε σ α β : Type}

@[simp] theorem run_bind (m : EStateM ε σ α) (f : α → EStateM ε σ β) (s : σ) :
    (m >>= f) s = match m s with
      | .ok a t => f a t
      | .error e t => .error e t := by
  change EStateM.bind m f s = _
  rw [EStateM.bind]
  cases m s <;> rfl

@[simp] theorem run_map (f : α → β) (m : EStateM ε σ α) (s : σ) :
    (f <$> m) s = match m s with
      | .ok a t => .ok (f a) t
      | .error e t => .error e t := by
  change EStateM.map f m s = _
  rw [EStateM.map]
  cases m s <;> rfl

@[simp] theorem run_get (s : σ) : (get : EStateM ε σ σ) s = .ok s s := rfl

@[simp] theorem run_pure (a : α) (s : σ) : (pure a : EStateM ε σ α) s = .ok a s := rfl

@[simp] theorem run_throw (e : ε) (s : σ) : (throw e : EStateM ε σ α) s = .error e s := rfl

@[simp] theorem run_modify (f : σ → σ) (s : σ) :
    (modify f : EStateM ε σ Unit) s = .ok ⟨⟩ (f s) := rfl

@[simp] theorem run_ofExcept (x : Except ε α) (s : σ) :
    (MonadExcept.ofExcept x : EStateM ε σ α) s = match x with
      | .ok a => .ok a s
      | .error e => .error e s := by
  cases x <;> rfl

/-- The object as a method leaves it, thrown out of or not. -/
def after (m : EStateM ε σ α) (s : σ) : σ :=
  match m s with
  | .ok _ t => t
  | .error _ t => t

variable {m : EStateM ε σ α} {s t : σ}

theorem after_ok {a : α} (h : m s = .ok a t) : after m s = t := by
  simp [after, h]

theorem after_error {e : ε} (h : m s = .error e t) : after m s = t := by
  simp [after, h]

theorem after_bind (m : EStateM ε σ α) (f : α → EStateM ε σ β) (s : σ) :
    after (m >>= f) s = match m s with
      | .ok a t => after (f a) t
      | .error _ t => t := by
  rw [after, run_bind]
  cases m s <;> rfl

theorem after_get (f : σ → EStateM ε σ β) (s : σ) : after (get >>= f) s = after (f s) s := rfl

def Keeps (I : σ → Prop) (m : EStateM ε σ α) : Prop := ∀ s, I s → I (after m s)

section Keeps

variable {I : σ → Prop}

theorem Keeps.bind {m : EStateM ε σ α} {f : α → EStateM ε σ β} (hm : Keeps I m)
    (hf : ∀ a, Keeps I (f a)) : Keeps I (m >>= f) := by
  intro s hs
  have hmid := hm s hs
  rw [after, run_bind]
  cases h : m s with
  | ok a t =>
    rw [after_ok h] at hmid
    exact hf a t hmid
  | error e t =>
    rw [after_error h] at hmid
    exact hmid

theorem Keeps.throw (e : ε) : Keeps I (MonadExcept.throw e : EStateM ε σ α) := fun _ hs => hs

theorem Keeps.get : Keeps I (MonadState.get : EStateM ε σ σ) := fun _ hs => hs

theorem Keeps.modify {f : σ → σ} (h : ∀ s, I s → I (f s)) :
    Keeps I (modify f : EStateM ε σ Unit) := h

theorem Keeps.ofExcept (x : Except ε α) : Keeps I (MonadExcept.ofExcept x : EStateM ε σ α) := by
  intro s hs
  rw [after, run_ofExcept]
  cases x <;> exact hs

end Keeps

def Relates (R : σ → σ → Prop) (m : EStateM ε σ α) : Prop := ∀ s a t, m s = .ok a t → R s t

section Relates

variable {R S T : σ → σ → Prop}

variable {f : α → EStateM ε σ β} {m : EStateM ε σ α}

theorem Relates.bind (hm : Relates R m) (hf : ∀ a, Relates S (f a))
    (trans : ∀ s t u, R s t → S t u → T s u) : Relates T (m >>= f) := by
  intro s b u h
  rw [run_bind] at h
  cases hmid : m s with
  | ok a t =>
    rw [hmid] at h
    exact trans s t u (hm s a t hmid) (hf a t b u h)
  | error e t =>
    rw [hmid] at h
    cases h

theorem Relates.eq_bind (hm : Relates Eq m) (hf : ∀ a, Relates T (f a)) : Relates T (m >>= f) :=
  .bind hm hf fun _ _ _ h h' => h ▸ h'

theorem Relates.get (refl : ∀ s, R s s) : Relates R (MonadState.get : EStateM ε σ σ) := by
  rintro s a t ⟨⟩
  exact refl s

theorem Relates.throw (e : ε) : Relates R (MonadExcept.throw e : EStateM ε σ α) := by
  rintro s a t ⟨⟩

theorem Relates.throw_bind (e : ε) (f : α → EStateM ε σ β) :
    Relates R (MonadExcept.throw e >>= f) := by
  rintro s b t ⟨⟩

theorem Relates.modify {f : σ → σ} (h : ∀ s, R s (f s)) :
    Relates R (modify f : EStateM ε σ Unit) := by
  rintro s a t ⟨⟩
  exact h s

theorem Relates.ofExcept (refl : ∀ s, R s s) (x : Except ε α) :
    Relates R (MonadExcept.ofExcept x : EStateM ε σ α) := by
  intro s a t h
  rw [run_ofExcept] at h
  cases x with
  | ok b =>
    cases h
    exact refl s
  | error e => cases h

end Relates

def Spares (m : EStateM ε σ α) (s : σ) : Prop := ∀ e t, m s = .error e t → t = s

def NeverThrows (m : EStateM ε σ α) : Prop := ∀ s e t, m s ≠ .error e t

section Spares

variable {m : EStateM ε σ α} {f : α → EStateM ε σ β} {s : σ}

theorem NeverThrows.spares (h : NeverThrows m) : Spares m s := fun e t he => absurd he (h s e t)

theorem NeverThrows.pure (a : α) : NeverThrows (Pure.pure a : EStateM ε σ α) := by
  rintro s e t ⟨⟩

theorem NeverThrows.get : NeverThrows (MonadState.get : EStateM ε σ σ) := by
  rintro s e t ⟨⟩

theorem NeverThrows.modify (g : σ → σ) : NeverThrows (modify g : EStateM ε σ Unit) := by
  rintro s e t ⟨⟩

theorem NeverThrows.bind (hm : NeverThrows m) (hf : ∀ a, NeverThrows (f a)) :
    NeverThrows (m >>= f) := by
  intro s e t h
  rw [run_bind] at h
  cases hmid : m s with
  | ok a mid =>
    rw [hmid] at h
    exact hf a mid e t h
  | error e' mid => exact hm s e' mid hmid

theorem Spares.bind (hm : Spares m s) (hf : ∀ a, NeverThrows (f a)) : Spares (m >>= f) s := by
  intro e t h
  rw [run_bind] at h
  cases hmid : m s with
  | ok a mid =>
    rw [hmid] at h
    exact absurd h (hf a mid e t)
  | error e' mid =>
    rw [hmid] at h
    injection h with _ hobject
    exact hobject ▸ hm e' mid hmid

theorem spares_pure (a : α) : Spares (Pure.pure a : EStateM ε σ α) s := (NeverThrows.pure a).spares

theorem spares_throw_bind (e : ε) : Spares (throw e >>= f) s := by
  rintro e t ⟨⟩
  rfl

theorem spares_get_bind {f : σ → EStateM ε σ β} : Spares (get >>= f) s ↔ Spares (f s) s := Iff.rfl

theorem spares_ofExcept_bind {x : Except ε α} :
    Spares (MonadExcept.ofExcept x >>= f) s ↔ ∀ a, x = .ok a → Spares (f a) s := by
  simp only [Spares, run_bind, run_ofExcept]
  cases x with
  | ok a => simp
  | error e =>
    simp

theorem spares_modify_bind {g : σ → σ} {m : EStateM ε σ β} (hm : Spares m (g s)) :
    Spares (modify g >>= fun _ => m) s ↔ (∀ e t, m (g s) ≠ .error e t) ∨ g s = s := by
  simp only [Spares, run_bind, run_modify]
  constructor
  · intro h
    by_cases hthrows : ∃ e t, m (g s) = .error e t
    · obtain ⟨e, t, ht⟩ := hthrows
      right
      exact (hm e t ht).symm.trans (h e t ht)
    · left
      intro e t ht
      exact hthrows ⟨e, t, ht⟩
  · rintro (h | h) e t ht
    · exact absurd ht (h e t)
    · exact (hm e t ht).trans h

end Spares

end Methods

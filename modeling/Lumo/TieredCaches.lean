import Mathlib.Algebra.Order.Field.Rat
import Mathlib.Logic.Function.Basic

/-! # Caches of two tiers

The near tier keeps a value until it expires; what it misses is asked of the far tier, if there is
one, and kept from then on. The clock and the far tier may fail at every access. -/

structure CacheEntry (β : Type) where
  value : β
  /-- Zero for a value that does not expire. -/
  expiresAt : ℚ

structure TieredCache (α β : Type) where
  lifetime : ℚ
  near : α → Option (CacheEntry β)
  far : Option (α → Option β)

namespace TieredCache

/-- What an access meets: the time, unless the clock throws, whether the far tier throws, and
whether it has kept, or keeps, the value. -/
structure Access where
  now : Option ℚ
  throws : Bool
  keeps : Bool

def Access.fine (now : ℚ) : Access := ⟨some now, false, true⟩

variable {α β : Type} [DecidableEq α]

def remember (now : Option ℚ) (k : α) (v : β) (c : TieredCache α β) :
    Option (TieredCache α β) :=
  if 0 < c.lifetime then
    now.map fun now => { c with near := Function.update c.near k (some ⟨v, now + c.lifetime⟩) }
  else some { c with near := Function.update c.near k (some ⟨v, 0⟩) }

def forget (k : α) (c : TieredCache α β) : TieredCache α β :=
  { c with near := Function.update c.near k none }

def getFar (a : Access) (k : α) (c : TieredCache α β) :
    TieredCache α β × Except Unit (Option β) :=
  match c.far with
  | none => (c, .ok none)
  | some far =>
    if a.throws then (c, .error ())
    else
      match if a.keeps then far k else none with
      | none => (c, .ok none)
      | some v =>
        match c.remember a.now k v with
        | none => (c, .error ())
        | some c => (c, .ok (some v))

def get (a : Access) (k : α) (c : TieredCache α β) : TieredCache α β × Except Unit (Option β) :=
  match c.near k with
  | none => c.getFar a k
  | some hit =>
    if hit.expiresAt = 0 then (c, .ok (some hit.value))
    else
      match a.now with
      | none => (c, .error ())
      | some now =>
        if now < hit.expiresAt then (c, .ok (some hit.value)) else (c.forget k).getFar a k

def set (a : Access) (k : α) (v : β) (c : TieredCache α β) : TieredCache α β × Except Unit Unit :=
  match c.remember a.now k v with
  | none => (c, .error ())
  | some c =>
    match c.far with
    | none => (c, .ok ())
    | some far =>
      ({ c with far := if a.keeps then some (Function.update far k (some v)) else some far },
        if a.throws then .error () else .ok ())

/-- Whatever the cache holds for a key is as `P` says. -/
structure Holds (P : α → β → Prop) (c : TieredCache α β) : Prop where
  near : ∀ k e, c.near k = some e → P k e.value
  far : ∀ f, c.far = some f → ∀ k v, f k = some v → P k v

variable {P : α → β → Prop} {a : Access} {c c' : TieredCache α β} {k : α} {v : β}

omit [DecidableEq α] in
theorem Holds.mono {Q : α → β → Prop} (h : Holds P c) (hpq : ∀ k v, P k v → Q k v) : Holds Q c :=
  ⟨fun k e he => hpq k _ (h.near k e he), fun f hf k v hv => hpq k v (h.far f hf k v hv)⟩

theorem Holds.remember {now : Option ℚ} (h : Holds P c) (hv : P k v)
    (hc : c.remember now k v = some c') : Holds P c' := by
  have hnear : ∀ expiresAt : ℚ, ∀ j e,
      Function.update c.near k (some ⟨v, expiresAt⟩) j = some e → P j e.value := by
    intro expiresAt j e he
    by_cases hj : j = k
    · subst hj
      rw [Function.update_self] at he
      cases he
      exact hv
    · rw [Function.update_of_ne hj] at he
      exact h.near j e he
  rw [TieredCache.remember] at hc
  split at hc
  · obtain ⟨t, -, rfl⟩ := Option.map_eq_some_iff.mp hc
    exact ⟨hnear _, h.far⟩
  · cases hc
    exact ⟨hnear _, h.far⟩

theorem Holds.forget (h : Holds P c) (k : α) : Holds P (c.forget k) := by
  refine ⟨?_, h.far⟩
  intro j e he
  by_cases hj : j = k
  · subst hj
    simp [TieredCache.forget] at he
  · simp only [TieredCache.forget, Function.update_of_ne hj] at he
    exact h.near j e he

theorem Holds.getFar (h : Holds P c) (a : Access) (k : α) : Holds P (c.getFar a k).1 ∧
    ∀ v, (c.getFar a k).2 = .ok (some v) → P k v := by
  cases hfar : c.far with
  | none => simp [TieredCache.getFar, hfar, h]
  | some far =>
    simp only [TieredCache.getFar, hfar]
    split
    · exact ⟨h, by simp⟩
    · split
      · exact ⟨h, by simp⟩
      · rename_i v hv
        have hheld : P k v := by
          split at hv
          · exact h.far far hfar k v hv
          · cases hv
        split
        · exact ⟨h, by simp⟩
        · rename_i c' hc
          refine ⟨h.remember hheld hc, ?_⟩
          rintro w ⟨⟩
          exact hheld

theorem Holds.get (h : Holds P c) (a : Access) (k : α) : Holds P (c.get a k).1 ∧
    ∀ v, (c.get a k).2 = .ok (some v) → P k v := by
  rw [TieredCache.get]
  split
  · exact h.getFar a k
  · rename_i hit hnear
    have hhit := h.near k hit hnear
    split
    · refine ⟨h, ?_⟩
      rintro v ⟨⟩
      exact hhit
    · split
      · exact ⟨h, by simp⟩
      · split
        · refine ⟨h, ?_⟩
          rintro v ⟨⟩
          exact hhit
        · exact (h.forget k).getFar a k

theorem Holds.set (h : Holds P c) (a : Access) (hv : P k v) : Holds P (c.set a k v).1 := by
  rw [TieredCache.set]
  split
  · exact h
  · rename_i c' hc
    have hkept := h.remember hv hc
    split
    · exact hkept
    · rename_i far hfar
      refine ⟨hkept.near, ?_⟩
      intro f hf j w hw
      split at hf
      · cases hf
        by_cases hj : j = k
        · subst hj
          rw [Function.update_self] at hw
          cases hw
          exact hv
        · rw [Function.update_of_ne hj] at hw
          exact hkept.far far hfar j w hw
      · cases hf
        exact hkept.far far hfar j w hw

def serves (now : ℚ) (c : TieredCache α β) (k : α) : Option β :=
  match c.near k with
  | none => c.far.bind fun far => far k
  | some hit =>
    if hit.expiresAt = 0 ∨ now < hit.expiresAt then some hit.value else c.far.bind fun far => far k

variable {now : ℚ}

theorem getFar_fine (now : ℚ) (k : α) (c : TieredCache α β) :
    (c.getFar (.fine now) k).2 = .ok (c.far.bind fun far => far k) := by
  cases hfar : c.far with
  | none => simp [getFar, hfar]
  | some far =>
    cases hheld : far k with
    | none => simp [getFar, hfar, Access.fine, hheld]
    | some v =>
      simp only [getFar, hfar, Access.fine, hheld, remember, Bool.false_eq_true, if_false, if_true]
      by_cases hlife : 0 < c.lifetime <;> simp [hlife, hheld]

theorem get_fine (now : ℚ) (k : α) (c : TieredCache α β) :
    (c.get (.fine now) k).2 = .ok (c.serves now k) := by
  rw [get, serves]
  split
  · exact getFar_fine now k c
  · rename_i hit hnear
    by_cases hzero : hit.expiresAt = 0
    · simp [hzero]
    · by_cases hlive : now < hit.expiresAt
      · simp [hzero, hlive, Access.fine]
      · have hforgot := getFar_fine now k (c.forget k)
        simp only [hzero, hlive, Access.fine, if_false, or_self]
        exact hforgot

theorem serves_remember (hc : c.remember (some now) k v = some c') (j : α) :
    c'.serves now j = if j = k then some v else c.serves now j := by
  rw [remember] at hc
  by_cases hj : j = k
  · subst hj
    split at hc
    · rename_i hlife
      cases hc
      have hlive : now < now + c.lifetime := lt_add_of_pos_right now hlife
      simp [serves, hlive]
    · cases hc
      simp [serves]
  · split at hc
    · cases hc
      simp [serves, hj]
    · cases hc
      simp [serves, hj]

theorem serves_getFar (now : ℚ) (k j : α) (c : TieredCache α β)
    (h : c.serves now k = c.far.bind fun far => far k) :
    (c.getFar (.fine now) k).1.serves now j = c.serves now j := by
  cases hfar : c.far with
  | none => simp [getFar, hfar]
  | some far =>
    cases hheld : far k with
    | none => simp [getFar, hfar, Access.fine, hheld]
    | some v =>
      have hserved : c.serves now k = some v := by rw [h, hfar, Option.bind_some, hheld]
      simp only [getFar, hfar, Access.fine, hheld, Bool.false_eq_true, if_false, if_true]
      split
      · rfl
      · rename_i c' hc
        rw [serves_remember hc]
        split
        · rename_i hj
          rw [hj, hserved]
        · rfl

theorem serves_get (now : ℚ) (k j : α) (c : TieredCache α β) :
    (c.get (.fine now) k).1.serves now j = c.serves now j := by
  rw [get]
  split
  · rename_i hnear
    apply serves_getFar
    rw [serves, hnear]
  · rename_i hit hnear
    by_cases hzero : hit.expiresAt = 0
    · simp [hzero]
    · by_cases hlive : now < hit.expiresAt
      · simp [hzero, hlive, Access.fine]
      · simp only [hzero, hlive, Access.fine, if_false]
        have hexpired : (c.forget k).serves now j = c.serves now j := by
          by_cases hj : j = k
          · subst hj
            simp [serves, forget, hnear, hzero, hlive]
          · simp [serves, forget, hj]
        rw [← hexpired]
        apply serves_getFar
        simp [serves, forget]

theorem serves_set_of_ne (now : ℚ) (v : β) (c : TieredCache α β) {j : α} (h : j ≠ k) :
    (c.set (.fine now) k v).1.serves now j = c.serves now j := by
  rw [set]
  split
  · rfl
  · rename_i c' hc
    have hkept : c'.serves now j = c.serves now j := by rw [serves_remember hc, if_neg h]
    split
    · exact hkept
    · rename_i far hfar
      rw [← hkept]
      simp [serves, Access.fine, hfar, h]

end TieredCache

import Mathlib.Algebra.Ring.Nat
import Mathlib.Data.List.Nodup

/-! # Maps that keep their keys in the order of insertion

Setting a key that is present replaces its value in place; a new key comes last. -/

variable {α β : Type}

structure OrderedMap (α β : Type) where
  entries : List (α × β)
  distinct : (entries.map Prod.fst).Nodup

namespace OrderedMap

instance [DecidableEq α] [DecidableEq β] : DecidableEq (OrderedMap α β) := fun m n =>
  decidable_of_iff (m.entries = n.entries) <| by
    cases m
    cases n
    simp

def keys (m : OrderedMap α β) : List α := m.entries.map Prod.fst

def empty : OrderedMap α β := ⟨[], List.nodup_nil⟩

@[simp] theorem entries_empty : (empty : OrderedMap α β).entries = [] := rfl

def mapValues {γ : Type} (f : α → β → γ) (m : OrderedMap α β) : OrderedMap α γ where
  entries := m.entries.map fun e => (e.1, f e.1 e.2)
  distinct := by
    have h := m.distinct
    simpa [List.map_map, Function.comp_def] using h

variable {k : α} {m : OrderedMap α β} {l : List (α × β)}

theorem mem_mapValues {γ : Type} {f : α → β → γ} {c : γ} :
    (k, c) ∈ (m.mapValues f).entries ↔ ∃ v, (k, v) ∈ m.entries ∧ f k v = c := by
  constructor
  · intro h
    obtain ⟨⟨k', v⟩, hm, he⟩ := List.mem_map.mp h
    obtain ⟨rfl, rfl⟩ := Prod.mk.inj he
    exact ⟨v, hm, rfl⟩
  · rintro ⟨v, hm, rfl⟩
    exact List.mem_map.mpr ⟨(k, v), hm, rfl⟩

variable [DecidableEq α]

def setEntries (k : α) (v : β) : List (α × β) → List (α × β)
  | [] => [(k, v)]
  | (j, w) :: rest => if j = k then (k, v) :: rest else (j, w) :: setEntries k v rest

theorem keys_setEntries (k : α) (v : β) (l : List (α × β)) :
    (setEntries k v l).map Prod.fst =
      if k ∈ l.map Prod.fst then l.map Prod.fst else l.map Prod.fst ++ [k] := by
  induction l with
  | nil => simp [setEntries]
  | cons e rest ih =>
    obtain ⟨j, w⟩ := e
    by_cases h : j = k
    · simp [setEntries, h]
    · have hk : ¬ k = j := fun he => h he.symm
      simp only [setEntries, h, if_false, List.map_cons, ih, List.mem_cons, hk, false_or]
      split <;> simp

def set (m : OrderedMap α β) (k : α) (v : β) : OrderedMap α β where
  entries := setEntries k v m.entries
  distinct := by
    rw [keys_setEntries]
    split
    · exact m.distinct
    · rename_i h
      exact List.nodup_append.mpr ⟨m.distinct, List.nodup_singleton k, by grind⟩

def ofEntries (l : List (α × β)) : OrderedMap α β :=
  l.foldl (fun m e => m.set e.1 e.2) empty

def find? (m : OrderedMap α β) (k : α) : Option β :=
  (m.entries.find? fun e => e.1 = k).map Prod.snd

@[simp] theorem find?_empty (k : α) : (empty : OrderedMap α β).find? k = none := rfl

theorem find?_eq_some {v : β} : m.find? k = some v ↔ (k, v) ∈ m.entries := by
  constructor
  · intro h
    obtain ⟨e, he, rfl⟩ := Option.map_eq_some_iff.mp h
    have hk : e.1 = k := by simpa using List.find?_some he
    rw [← hk]
    exact List.mem_of_find?_eq_some he
  · intro h
    have hfound : (m.entries.find? fun e => e.1 = k).isSome := by
      rw [List.find?_isSome]
      exact ⟨_, h, by simp⟩
    obtain ⟨e, he⟩ := Option.isSome_iff_exists.mp hfound
    have hk : e.1 = k := by simpa using List.find?_some he
    have heq : e = (k, v) :=
      List.inj_on_of_nodup_map m.distinct (List.mem_of_find?_eq_some he) h hk
    simp [find?, he, heq]

theorem find?_eq_none : m.find? k = none ↔ k ∉ m.keys := by
  constructor
  · intro h hk
    obtain ⟨⟨j, v⟩, hm, rfl⟩ := List.mem_map.mp hk
    rw [find?_eq_some.mpr hm] at h
    cases h
  · intro hk
    cases h : m.find? k with
    | none => rfl
    | some v => exact absurd (List.mem_map.mpr ⟨(k, v), find?_eq_some.mp h, rfl⟩) hk

theorem find?_setEntries (k j : α) (v : β) (l : List (α × β)) :
    ((setEntries k v l).find? fun e => e.1 = j).map Prod.snd =
      if j = k then some v else (l.find? fun e => e.1 = j).map Prod.snd := by
  induction l with
  | nil =>
    by_cases h : j = k
    · simp [setEntries, h]
    · have hk : ¬ k = j := fun he => h he.symm
      simp [setEntries, h, hk]
  | cons e rest ih =>
    obtain ⟨i, w⟩ := e
    by_cases hi : i = k
    · by_cases h : j = k
      · simp [setEntries, hi, h]
      · have hk : ¬ k = j := fun he => h he.symm
        simp [setEntries, hi, h, hk]
    · by_cases hij : i = j
      · have h : ¬ j = k := fun he => hi (hij.trans he)
        simp [setEntries, hij, h]
      · simp [setEntries, hi, hij, ih]

@[simp] theorem find?_set (m : OrderedMap α β) (k j : α) (v : β) :
    (m.set k v).find? j = if j = k then some v else m.find? j :=
  find?_setEntries k j v m.entries

@[simp] theorem find?_mapValues {γ : Type} (f : α → β → γ) (m : OrderedMap α β) (k : α) :
    (m.mapValues f).find? k = (m.find? k).map (f k) := by
  cases h : m.find? k with
  | none =>
    have hk := find?_eq_none.mp h
    rw [Option.map_none, find?_eq_none]
    intro hmem
    obtain ⟨⟨j, c⟩, hj, rfl⟩ := List.mem_map.mp hmem
    obtain ⟨v, hv, -⟩ := mem_mapValues.mp hj
    exact hk (List.mem_map_of_mem hv)
  | some v => exact find?_eq_some.mpr (mem_mapValues.mpr ⟨v, find?_eq_some.mp h, rfl⟩)

def erase (m : OrderedMap α β) (k : α) : OrderedMap α β where
  entries := m.entries.filter fun e => e.1 ≠ k
  distinct := m.distinct.sublist (List.filter_sublist.map Prod.fst)

theorem mem_set {v : β} {e : α × β} (h : e ∈ (m.set k v).entries) : e = (k, v) ∨ e ∈ m.entries := by
  have hf := find?_eq_some.mpr h
  rw [find?_set] at hf
  split at hf
  · rename_i hk
    cases hf
    exact Or.inl (Prod.ext hk rfl)
  · exact Or.inr (find?_eq_some.mp hf)

theorem sum_setEntries (f : β → ℕ) (k : α) (v : β) (l : List (α × β)) :
    ((setEntries k v l).map fun e => f e.2).sum +
        (((l.find? fun e => e.1 = k).map Prod.snd).elim 0 f) =
      (l.map fun e => f e.2).sum + f v := by
  induction l with
  | nil => simp [setEntries]
  | cons e rest ih =>
    obtain ⟨j, w⟩ := e
    by_cases h : j = k
    · simp only [setEntries, h, if_true, List.map_cons, List.sum_cons, decide_true,
        List.find?_cons_of_pos, Option.map_some, Option.elim_some]
      omega
    · simp only [setEntries, h, if_false, List.map_cons, List.sum_cons, decide_false,
        Bool.false_eq_true, not_false_eq_true, List.find?_cons_of_neg]
      omega

theorem sum_set (f : β → ℕ) (m : OrderedMap α β) (k : α) (v : β) :
    ((m.set k v).entries.map fun e => f e.2).sum + ((m.find? k).elim 0 f) =
      (m.entries.map fun e => f e.2).sum + f v :=
  sum_setEntries f k v m.entries

theorem setEntries_new (v : β) (h : k ∉ l.map Prod.fst) : setEntries k v l = l ++ [(k, v)] := by
  induction l with
  | nil => rfl
  | cons e rest ih =>
    obtain ⟨j, w⟩ := e
    have hj : ¬ j = k := by
      rintro rfl
      simp at h
    have hrest : k ∉ rest.map Prod.fst := fun hm => h (List.mem_cons_of_mem _ hm)
    simp [setEntries, hj, ih hrest]

theorem entries_ofEntries (h : (l.map Prod.fst).Nodup) : (ofEntries l).entries = l := by
  have hfold : ∀ (l : List (α × β)) (m : OrderedMap α β),
      ((m.entries ++ l).map Prod.fst).Nodup →
        (l.foldl (fun m e => m.set e.1 e.2) m).entries = m.entries ++ l := by
    intro l
    induction l with
    | nil => simp
    | cons e rest ih =>
      intro m hm
      have hnew : e.1 ∉ m.entries.map Prod.fst := by
        rw [List.map_append, List.map_cons, List.nodup_append] at hm
        intro hmem
        exact hm.2.2 _ hmem _ (by simp) rfl
      have hset : (m.set e.1 e.2).entries = m.entries ++ [e] := setEntries_new e.2 hnew
      have hrest := ih (m.set e.1 e.2) (by simpa [hset] using hm)
      simpa [hset] using hrest
  exact hfold l empty (by simpa using h)

theorem mem_of_mem_ofEntries {e : α × β} (h : e ∈ (ofEntries l).entries) : e ∈ l := by
  have hfold : ∀ (l : List (α × β)) (m : OrderedMap α β),
      e ∈ (l.foldl (fun m e => m.set e.1 e.2) m).entries → e ∈ m.entries ∨ e ∈ l := by
    intro l
    induction l with
    | nil => simp
    | cons x rest ih =>
      intro m hm
      rcases ih _ hm with hset | hrest
      · rcases mem_set hset with rfl | hold
        · exact Or.inr (by simp)
        · exact Or.inl hold
      · exact Or.inr (List.mem_cons_of_mem _ hrest)
  rcases hfold l empty h with hnil | hl
  · simp at hnil
  · exact hl

/-- `{ ...m, ...n }`: what the second map holds comes before what the first does. -/
def spread (m n : OrderedMap α β) : OrderedMap α β :=
  n.entries.foldl (fun m e => m.set e.1 e.2) m

theorem find?_spread (m n : OrderedMap α β) (k : α) :
    (m.spread n).find? k = (n.find? k).or (m.find? k) := by
  have hfold : ∀ (l : List (α × β)) (m : OrderedMap α β), (l.map Prod.fst).Nodup →
      (l.foldl (fun m e => m.set e.1 e.2) m).find? k =
        (((l.find? fun e => e.1 = k).map Prod.snd).or (m.find? k)) := by
    intro l
    induction l with
    | nil => simp
    | cons e rest ih =>
      intro m hnodup
      rw [List.map_cons, List.nodup_cons] at hnodup
      rw [List.foldl_cons, ih _ hnodup.2, find?_set]
      by_cases h : e.1 = k
      · have hnone : rest.find? (fun e => e.1 = k) = none := by
          rw [List.find?_eq_none]
          intro x hx hk
          refine hnodup.1 ?_
          rw [h, ← of_decide_eq_true hk]
          exact List.mem_map_of_mem hx
        simp [h, hnone]
      · have hk : ¬ k = e.1 := fun he => h he.symm
        simp [h, hk]
  exact hfold n.entries m n.distinct

section Keyed

variable {key : β → α}

def setAll (key : β → α) (m : OrderedMap α β) (l : List β) : OrderedMap α β :=
  l.foldl (fun m v => m.set (key v) v) m

def Keyed (key : β → α) (m : OrderedMap α β) : Prop := ∀ e ∈ m.entries, key e.2 = e.1

def values (m : OrderedMap α β) : List β := m.entries.map Prod.snd

omit [DecidableEq α] in
theorem keyed_empty : Keyed key (empty : OrderedMap α β) := by simp [Keyed]

variable {m : OrderedMap α β} {v : β} {l : List β}

theorem Keyed.set (h : Keyed key m) (v : β) : Keyed key (m.set (key v) v) := by
  intro e he
  rcases mem_set he with rfl | hold
  · rfl
  · exact h e hold

theorem Keyed.setAll (h : Keyed key m) (l : List β) : Keyed key (m.setAll key l) := by
  induction l generalizing m with
  | nil => exact h
  | cons v l ih => exact ih (h.set v)

theorem Keyed.erase (h : Keyed key m) (k : α) : Keyed key (m.erase k) :=
  fun e he => h e (List.mem_filter.mp he).1

omit [DecidableEq α] in
theorem Keyed.map_values (h : Keyed key m) : m.values.map key = m.keys := by
  rw [values, keys, List.map_map]
  exact List.map_congr_left h

theorem Keyed.setAll_values (h : Keyed key m) :
    (empty : OrderedMap α β).setAll key m.values = m := by
  have hdistinct : (m.values.map key).Nodup := h.map_values ▸ m.distinct
  have hpairs : (empty : OrderedMap α β).setAll key m.values =
      ofEntries (m.values.map fun v => (key v, v)) := by
    rw [OrderedMap.setAll, ofEntries, List.foldl_map]
  have hentries : (m.values.map fun v => (key v, v)) = m.entries := by
    rw [values, List.map_map]
    conv_rhs => rw [← List.map_id m.entries]
    exact List.map_congr_left fun e he => Prod.ext (h e he) rfl
  rw [hpairs, hentries]
  cases m with
  | mk entries distinct =>
    have hkept := entries_ofEntries (l := entries) distinct
    cases hof : ofEntries entries with
    | mk entries' distinct' =>
      rw [hof] at hkept
      subst hkept
      rfl

theorem mem_setAll (h : v ∈ (m.setAll key l).values) : v ∈ m.values ∨ v ∈ l := by
  induction l generalizing m with
  | nil => exact .inl h
  | cons w l ih =>
    rcases ih h with hset | hl
    · obtain ⟨e, he, rfl⟩ := List.mem_map.mp hset
      rcases mem_set he with rfl | hold
      · exact .inr List.mem_cons_self
      · exact .inl (List.mem_map_of_mem hold)
    · exact .inr (List.mem_cons_of_mem _ hl)

theorem keys_setAll (h : ∀ v ∈ l, key v ∈ m.keys) : (m.setAll key l).keys = m.keys := by
  induction l generalizing m with
  | nil => rfl
  | cons v l ih =>
    have hkeys : (m.set (key v) v).keys = m.keys := by
      have hv := h v List.mem_cons_self
      rw [keys] at hv
      rw [keys, set, keys_setEntries, if_pos hv, keys]
    change ((m.set (key v) v).setAll key l).keys = m.keys
    rw [ih (fun w hw => hkeys ▸ h w (List.mem_cons_of_mem _ hw)), hkeys]

theorem values_setAll_empty (h : (l.map key).Nodup) :
    ((empty : OrderedMap α β).setAll key l).values = l := by
  have hpairs : (empty : OrderedMap α β).setAll key l = ofEntries (l.map fun v => (key v, v)) := by
    rw [setAll, ofEntries, List.foldl_map]
  rw [values, hpairs, entries_ofEntries (by rwa [List.map_map]), List.map_map]
  exact List.map_id l

theorem keys_setAll_empty (h : (l.map key).Nodup) :
    ((empty : OrderedMap α β).setAll key l).keys = l.map key := by
  rw [← (keyed_empty.setAll l).map_values, values_setAll_empty h]

theorem setEntries_middle {k : α} {w : β} {before after : List (α × β)}
    (h : k ∉ before.map Prod.fst) :
    setEntries k v (before ++ (k, w) :: after) = before ++ (k, v) :: after := by
  induction before with
  | nil => simp [setEntries]
  | cons e before ih =>
    obtain ⟨j, u⟩ := e
    have hj : ¬ j = k := by
      rintro rfl
      simp at h
    simp [setEntries, hj, ih fun hm => h (List.mem_cons_of_mem _ hm)]

/-- New values of the first keys take the places of the old ones. -/
theorem values_setAll_front (hm : Keyed key m) (before old new after : List β)
    (hvalues : m.values = before ++ old ++ after) (hkeys : new.map key = old.map key) :
    (m.setAll key new).values = before ++ new ++ after := by
  induction new generalizing m before old with
  | nil =>
    rw [List.map_nil] at hkeys
    obtain rfl := List.map_eq_nil_iff.mp hkeys.symm
    exact hvalues
  | cons v new ih =>
    cases old with
    | nil => cases hkeys
    | cons w old =>
      obtain ⟨hkey, hrest⟩ := List.cons.inj hkeys
      have hentries : m.entries = (before ++ (w :: old) ++ after).map fun u => (key u, u) := by
        rw [← hvalues, values, List.map_map]
        conv_lhs => rw [← List.map_id m.entries]
        exact List.map_congr_left fun e he => Prod.ext (hm e he).symm rfl
      have hfresh : key v ∉ (before.map fun u => (key u, u)).map Prod.fst := by
        have hdistinct := m.distinct
        rw [hentries, List.map_map] at hdistinct
        rw [List.map_map]
        simp only [List.append_assoc, List.cons_append, List.map_append, List.map_cons,
          List.nodup_append] at hdistinct
        intro hmem
        refine hdistinct.2.2 _ hmem _ List.mem_cons_self ?_
        exact hkey
      have hset : (m.set (key v) v).values = before ++ [v] ++ old ++ after := by
        change (setEntries (key v) v m.entries).map Prod.snd = _
        rw [hentries]
        simp only [List.append_assoc, List.cons_append, List.map_append, List.map_cons]
        rw [← hkey, setEntries_middle hfresh]
        simp [List.map_map, Function.comp_def]
      have hkeyed : Keyed key (m.set (key v) v) := by
        intro e he
        rcases mem_set he with rfl | hold
        · rfl
        · exact hm e hold
      have hafter := ih hkeyed _ _ hset hrest
      change ((m.set (key v) v).setAll key new).values = _
      simpa using hafter

end Keyed

end OrderedMap

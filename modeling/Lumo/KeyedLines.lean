import Mathlib.Algebra.BigOperators.Group.Finset.Piecewise
import Mathlib.Data.List.NodupEquivFin
import Mathlib.Logic.Function.Basic
import Lumo.OrderedMap

/-! # Lists of lines that are told apart by a key

The lines are references; the key and the amount of each are read from elsewhere, so that
one line of two lists is the same line. -/
namespace KeyedLines

variable {R K M : Type*} {key : R → K} {l l' : List R} {r : R}

/-- No two lines have one key. -/
def Distinct (key : R → K) (l : List R) : Prop := (l.map key).Nodup

instance [DecidableEq K] : Decidable (Distinct key l) := inferInstanceAs (Decidable (List.Nodup _))

theorem Distinct.nodup (h : Distinct key l) : l.Nodup := List.Nodup.of_map key h

theorem Distinct.eq_of_key (h : Distinct key l) {r r' : R} (hr : r ∈ l) (hr' : r' ∈ l)
    (hk : key r = key r') : r = r' :=
  List.inj_on_of_nodup_map h hr hr' hk

theorem Distinct.sublist (h : Distinct key l) (hs : l'.Sublist l) : Distinct key l' :=
  List.Nodup.sublist (hs.map key) h

theorem Distinct.congr {key' : R → K} (h : Distinct key l) (hk : ∀ r ∈ l, key' r = key r) :
    Distinct key' l := by
  rwa [Distinct, List.map_congr_left hk]

theorem distinct_cons : Distinct key (r :: l) ↔ (∀ x ∈ l, key x ≠ key r) ∧ Distinct key l := by
  simp [Distinct]

theorem distinct_concat : Distinct key (l ++ [r]) ↔ Distinct key l ∧ ∀ x ∈ l, key x ≠ key r := by
  simp [Distinct, List.nodup_append]

theorem set_idxOf [DecidableEq R] {old : R} (hold : old ∈ l) :
    ∃ before rest, l = before ++ old :: rest ∧
      l.set (l.idxOf old) r = before ++ r :: rest := by
  obtain ⟨before, rest, rfl, hfirst⟩ := List.eq_append_cons_of_mem hold
  refine ⟨before, rest, rfl, ?_⟩
  rw [List.idxOf_append_of_notMem hfirst, List.idxOf_cons_self, Nat.add_zero,
    List.set_append_right _ _ le_rfl, Nat.sub_self, List.set_cons_zero]

theorem Distinct.set_iff [DecidableEq R] (h : Distinct key l) {old : R} (hold : old ∈ l) :
    Distinct key (l.set (l.idxOf old) r) ↔ ∀ x ∈ l, x ≠ old → key x ≠ key r := by
  obtain ⟨before, rest, rfl, hset⟩ := set_idxOf (r := r) hold
  have hsplit (x : R) : Distinct key (before ++ x :: rest) ↔
      (∀ y ∈ before ++ rest, key y ≠ key x) ∧ Distinct key (before ++ rest) := by
    have hperm : (before ++ x :: rest).Perm (x :: (before ++ rest)) := List.perm_middle
    rw [← distinct_cons]
    exact (hperm.map key).nodup_iff
  rw [hset, hsplit]
  constructor
  · intro hnew x hx hne
    apply hnew.1
    simpa [hne] using hx
  · intro hnew
    refine ⟨?_, ((hsplit old).mp h).2⟩
    intro x hx
    have hkey : key x ≠ key old := ((hsplit old).mp h).1 x hx
    apply hnew x
    · rcases List.mem_append.mp hx with hx | hx
      · exact List.mem_append_left _ hx
      · exact List.mem_append_right _ (List.mem_cons_of_mem _ hx)
    · intro heq
      exact hkey (congrArg key heq)

section Lookup

variable [DecidableEq K]

theorem Distinct.find?_eq_some (h : Distinct key l) {k : K} :
    l.find? (fun x => key x == k) = some r ↔ r ∈ l ∧ key r = k := by
  constructor
  · intro hfound
    exact ⟨List.mem_of_find?_eq_some hfound, by simpa using List.find?_some hfound⟩
  · rintro ⟨hr, rfl⟩
    have hsome : (l.find? fun x => key x == key r).isSome :=
      List.find?_isSome.mpr ⟨r, hr, beq_self_eq_true _⟩
    obtain ⟨x, hx⟩ := Option.isSome_iff_exists.mp hsome
    rw [hx, h.eq_of_key (List.mem_of_find?_eq_some hx) hr (by simpa using List.find?_some hx)]

theorem Distinct.find?_perm (h : Distinct key l) (hp : l.Perm l') (k : K) :
    l.find? (fun x => key x == k) = l'.find? (fun x => key x == k) := by
  have h' : Distinct key l' := (hp.map key).nodup_iff.mp h
  apply Option.ext
  intro r
  rw [h.find?_eq_some, h'.find?_eq_some, hp.mem_iff]

theorem set_findIdx (k : K) (hk : key r = k) (hl : ∃ x ∈ l, key x = k) :
    (l.set (l.findIdx fun x => key x == k) r).map key = l.map key ∧
      ∀ j, (l.set (l.findIdx fun x => key x == k) r).find? (fun x => key x == j) =
        if j = k then some r else l.find? fun x => key x == j := by
  induction l with
  | nil => simp at hl
  | cons x l ih =>
    by_cases hx : key x = k
    · simp only [List.findIdx_cons, hx, beq_self_eq_true, cond_true, List.set_cons_zero,
        List.map_cons, hk, List.find?_cons, true_and]
      intro j
      by_cases hj : j = k
      · simp [hj]
      · simp [hj, beq_false_of_ne (Ne.symm hj)]
    · obtain ⟨hkeys, hfind⟩ := ih (by simpa [hx] using hl)
      simp only [List.findIdx_cons, beq_false_of_ne hx, cond_false, List.set_cons_succ,
        List.map_cons, hkeys, List.find?_cons, hfind, true_and]
      intro j
      by_cases hj : j = k
      · simp [hj, beq_false_of_ne hx]
      · simp [hj]

theorem Distinct.find?_eraseIdx (h : Distinct key l) (k j : K) :
    (l.eraseIdx (l.findIdx fun x => key x == k)).find? (fun x => key x == j) =
      if j = k then none else l.find? fun x => key x == j := by
  induction l with
  | nil => simp
  | cons x l ih =>
    obtain ⟨hfirst, hrest⟩ := distinct_cons.mp h
    by_cases hx : key x = k
    · subst hx
      by_cases hj : j = key x
      · simpa [List.findIdx_cons, hj] using hfirst
      · simp [List.findIdx_cons, hj, Ne.symm hj]
    · simp only [List.findIdx_cons, beq_false_of_ne hx, cond_false, List.eraseIdx_cons_succ,
        List.find?_cons, ih hrest]
      by_cases hj : j = k
      · simp [hj, beq_false_of_ne hx]
      · simp [hj]

end Lookup

section Totals

variable [AddCommMonoid M] [DecidableEq K] {amount : R → M}

def totalAt (key : R → K) (amount : R → M) (l : List R) (k : K) : M :=
  ((l.filter fun r => key r = k).map amount).sum

@[simp] theorem totalAt_nil (k : K) : totalAt key amount [] k = 0 := rfl

theorem totalAt_cons (r : R) (l : List R) (k : K) :
    totalAt key amount (r :: l) k =
      (if key r = k then amount r else 0) + totalAt key amount l k := by
  by_cases h : key r = k
  · simp [totalAt, h]
  · simp [totalAt, h]

theorem totalAt_append (l l' : List R) (k : K) :
    totalAt key amount (l ++ l') k = totalAt key amount l k + totalAt key amount l' k := by
  simp [totalAt]

theorem totalAt_concat (l : List R) (r : R) (k : K) :
    totalAt key amount (l ++ [r]) k =
      totalAt key amount l k + if key r = k then amount r else 0 := by
  rw [totalAt_append, totalAt_cons, totalAt_nil, add_zero]

theorem totalAt_congr {key' : R → K} {amount' : R → M} (h : ∀ r ∈ l, key' r = key r)
    (h' : ∀ r ∈ l, amount' r = amount r) (k : K) :
    totalAt key' amount' l k = totalAt key amount l k := by
  induction l with
  | nil => rfl
  | cons r l ih =>
    rw [totalAt_cons, totalAt_cons, h r List.mem_cons_self, h' r List.mem_cons_self,
      ih (fun x hx => h x (List.mem_cons_of_mem _ hx)) fun x hx => h' x (List.mem_cons_of_mem _ hx)]

theorem totalAt_map {S : Type*} (f : S → R) (l : List S) (k : K) :
    totalAt key amount (l.map f) k = totalAt (fun x => key (f x)) (fun x => amount (f x)) l k := by
  induction l with
  | nil => rfl
  | cons x l ih => rw [List.map_cons, totalAt_cons, totalAt_cons, ih]

theorem totalAt_eq_zero {k : K} (h : ∀ r ∈ l, key r ≠ k) : totalAt key amount l k = 0 := by
  rw [totalAt, List.filter_eq_nil_iff.mpr fun r hr => by simpa using h r hr]
  rfl

theorem Distinct.totalAt_of_mem (h : Distinct key l) (hr : r ∈ l) :
    totalAt key amount l (key r) = amount r := by
  induction l with
  | nil => cases hr
  | cons x l ih =>
    obtain ⟨hx, hl⟩ := distinct_cons.mp h
    rw [totalAt_cons]
    rcases List.mem_cons.mp hr with rfl | hr
    · rw [if_pos rfl, totalAt_eq_zero hx, add_zero]
    · rw [if_neg (hx r hr).symm, ih hl hr, zero_add]

theorem totalAt_filter {p : R → Bool} (h : ∀ r ∈ l, p r = false → amount r = 0) (k : K) :
    totalAt key amount (l.filter p) k = totalAt key amount l k := by
  induction l with
  | nil => rfl
  | cons r l ih =>
    have hrest := ih fun x hx => h x (List.mem_cons_of_mem _ hx)
    rw [totalAt_cons, ← hrest]
    cases hp : p r with
    | true => rw [List.filter_cons_of_pos hp, totalAt_cons]
    | false =>
      rw [List.filter_cons_of_neg (by simp [hp]), h r List.mem_cons_self hp, ite_self, zero_add]

theorem totalAt_raised {amount' : R → M} {n : M} (hl : l.Nodup) (hr : r ∈ l)
    (hraised : amount' r = amount r + n) (hother : ∀ x, x ≠ r → amount' x = amount x) (k : K) :
    totalAt key amount' l k = totalAt key amount l k + if key r = k then n else 0 := by
  induction l with
  | nil => cases hr
  | cons x l ih =>
    rw [totalAt_cons, totalAt_cons]
    have hnodup := List.nodup_cons.mp hl
    by_cases hx : x = r
    · subst hx
      have hrest : totalAt key amount' l k = totalAt key amount l k :=
        totalAt_congr (fun _ _ => rfl) (fun y hy => hother y fun heq => hnodup.1 (heq ▸ hy)) k
      rw [hrest, hraised]
      by_cases hk : key x = k
      · simp only [hk, if_true]
        exact add_right_comm _ _ _
      · simp only [hk, if_false, add_zero]
    · have hmem : r ∈ l := (List.mem_cons.mp hr).resolve_left (Ne.symm hx)
      rw [ih hnodup.2 hmem, hother x hx, add_assoc]

variable (amount) in
theorem sum_filter (p : R → Bool) (l : List R) :
    ((l.filter p).map amount).sum = (l.map fun r => if p r then amount r else 0).sum := by
  induction l with
  | nil => rfl
  | cons r l ih =>
    by_cases h : p r
    · simp [h, ih]
    · simp [h, ih]

variable (amount) in
theorem sum_totalAt {ks : List K} (hks : ks.Nodup) (hl : ∀ r ∈ l, key r ∈ ks) :
    (ks.map (totalAt key amount l)).sum = (l.map amount).sum := by
  induction l with
  | nil =>
    have hzero : totalAt key amount [] = fun _ => 0 := rfl
    simp [hzero]
  | cons r l ih =>
    have hone : (ks.map fun k => if key r = k then amount r else 0).sum = amount r := by
      rw [← List.sum_toFinset _ hks, Finset.sum_ite_eq,
        if_pos (List.mem_toFinset.mpr (hl r List.mem_cons_self))]
    have hsplit : ks.map (totalAt key amount (r :: l)) =
        ks.map fun k => (if key r = k then amount r else 0) + totalAt key amount l k :=
      List.map_congr_left fun k _ => totalAt_cons r l k
    rw [hsplit, List.sum_map_add, hone, ih fun x hx => hl x (List.mem_cons_of_mem _ hx),
      List.map_cons, List.sum_cons]

end Totals

section Accumulation

variable {R K β : Type} {M : Type*} [AddCommMonoid M] [DecidableEq K] (key : R → K) (amount : R → M)

theorem totalAt_foldl (zero : β) (add : β → R → β) (measure : β → M)
    (hadd : ∀ v r, measure (add v r) = measure v + amount r) (l : List R) (m : OrderedMap K β)
    (k : K) :
    measure (((l.foldl (fun m r => m.set (key r) (add ((m.find? (key r)).getD zero) r))
        m).find? k).getD zero) =
      measure ((m.find? k).getD zero) + totalAt key amount l k := by
  induction l generalizing m with
  | nil => exact (add_zero _).symm
  | cons r l ih =>
    rw [List.foldl_cons, ih, totalAt_cons, OrderedMap.find?_set]
    by_cases h : key r = k
    · rw [if_pos h.symm, if_pos h, Option.getD_some, hadd, h, add_assoc]
    · rw [if_neg (Ne.symm h), if_neg h, zero_add]

end Accumulation

end KeyedLines

import Mathlib.Algebra.Order.Ring.Int
import Mathlib.Data.List.Induction
import Mathlib.Data.List.Nodup
import Mathlib.Data.List.Perm.Subperm
import Mathlib.Data.List.Count
import Mathlib.Data.List.Dedup
import Mathlib.Logic.Function.Basic

/-! # Dependency orders

Kahn's algorithm on a list of nodes and a list of edges, and the nodes that a change spreads to. An
edge `(a, b)` says that `a` requires `b`, and may be listed more than once. -/
namespace DependencyOrder

variable {α : Type} [DecidableEq α]

def dependents (edges : List (α × α)) (node : α) : List α :=
  (edges.filter fun e => e.2 = node).map Prod.fst

def inDegree (edges : List (α × α)) (node : α) : ℤ := edges.countP fun e => e.1 = node

def release : (α → ℤ) → List α → (α → ℤ) × List α
  | remaining, [] => (remaining, [])
  | remaining, dependent :: rest =>
    let next := remaining dependent - 1
    let released := release (Function.update remaining dependent next) rest
    (released.1, if next = 0 then dependent :: released.2 else released.2)

def drain (edges : List (α × α)) : ℕ → (α → ℤ) → List α → List α → List α
  | 0, _, _, order => order
  | _ + 1, _, [], order => order
  | fuel + 1, remaining, node :: queue, order =>
    let released := release remaining (dependents edges node)
    drain edges fuel released.1 (queue ++ released.2) (order ++ [node])

def kahn (nodes : List α) (edges : List (α × α)) : List α :=
  drain edges nodes.length (inDegree edges) (nodes.filter fun n => inDegree edges n = 0) []

def Respects (edges : List (α × α)) (order : List α) : Prop :=
  ∀ before node after, order = before ++ node :: after →
    ∀ e ∈ edges, e.1 = node → e.2 ∈ before

theorem countP_snoc {p : α × α → Prop} [DecidablePred p] (f : α × α → α) {l : List α} {next : α}
    (h : next ∉ l) (edges : List (α × α)) :
    (edges.countP fun e => p e ∧ f e ∉ l) =
      (edges.countP fun e => p e ∧ f e = next) + edges.countP fun e => p e ∧ f e ∉ l ++ [next] := by
  induction edges with
  | nil => rfl
  | cons e rest ih =>
    simp only [List.countP_cons, ih]
    by_cases hp : p e
    · by_cases hnext : f e = next
      · simp [hp, hnext, h]
        omega
      · by_cases hin : f e ∈ l
        · simp [hp, hnext, hin]
        · simp [hp, hnext, hin]
          omega
    · simp [hp]

omit [DecidableEq α] in
theorem respects_nil (edges : List (α × α)) : Respects edges [] := by
  intro before node after h
  cases before <;> cases h

variable {edges : List (α × α)} {order : List α}

omit [DecidableEq α] in
theorem Respects.snoc {last : α} (h : Respects edges order)
    (hlast : ∀ e ∈ edges, e.1 = last → e.2 ∈ order) : Respects edges (order ++ [last]) := by
  intro before node after hsplit
  rcases List.eq_nil_or_concat after with rfl | ⟨after, x, rfl⟩
  · obtain ⟨rfl, hnode⟩ := List.append_inj' hsplit rfl
    cases hnode
    exact hlast
  · rw [List.concat_eq_append, ← List.cons_append, ← List.append_assoc] at hsplit
    obtain ⟨rfl, _⟩ := List.append_inj' hsplit rfl
    exact h before node after rfl

omit [DecidableEq α] in
theorem Respects.induction {edges : List (α × α)} {order : List α} (h : Respects edges order)
    {P : α → Prop} (step : ∀ node ∈ order, (∀ e ∈ edges, e.1 = node → P e.2) → P node) :
    ∀ node ∈ order, P node := by
  have hfront : ∀ before after, order = before ++ after → ∀ node ∈ before, P node := by
    intro before
    induction before using List.reverseRecOn with
    | nil => rintro _ _ node ⟨⟩
    | append_singleton before last ih =>
      intro after hsplit node hnode
      rw [List.append_assoc] at hsplit
      have hbefore := ih _ hsplit
      rcases List.mem_append.mp hnode with hold | hlast
      · exact hbefore node hold
      · rw [List.mem_singleton.mp hlast]
        apply step last (by simp [hsplit])
        intro e he hrequires
        exact hbefore e.2 (h before last after hsplit e he hrequires)
  exact hfront order [] (by simp)

omit [DecidableEq α] in
theorem Respects.pairwise (h : Respects edges order) (hnodup : order.Nodup) :
    order.Pairwise fun a b => (a, b) ∉ edges := by
  rw [List.pairwise_iff_forall_sublist]
  intro a b hsub hedge
  obtain ⟨front, back, rfl, ha, hb⟩ := List.cons_sublist_iff.mp hsub
  obtain ⟨before, after, rfl⟩ := List.append_of_mem ha
  have hsplit : before ++ a :: after ++ back = before ++ a :: (after ++ back) := by simp
  have hbefore := h before a (after ++ back) hsplit (a, b) hedge rfl
  exact List.disjoint_of_nodup_append hnodup (List.mem_append_left _ hbefore)
    (List.singleton_sublist.mp hb)

omit [DecidableEq α] in
theorem Respects.irrefl (h : Respects edges order) (hnodup : order.Nodup) {node : α}
    (hnode : node ∈ order) : (node, node) ∉ edges := by
  intro hedge
  obtain ⟨before, after, rfl⟩ := List.append_of_mem hnode
  have hbefore := h before node after rfl (node, node) hedge rfl
  exact List.disjoint_of_nodup_append hnodup hbefore List.mem_cons_self

omit [DecidableEq α] in
theorem Respects.filter {part : List (α × α)} (h : Respects edges order) (p : α → Bool)
    (hpart : ∀ e ∈ part, e ∈ edges ∧ p e.2 = true) : Respects part (order.filter p) := by
  intro before node after hsplit e he hnode
  obtain ⟨l₁, l₂, rfl, hbefore, hrest⟩ := List.filter_eq_append_iff.mp hsplit
  obtain ⟨skipped, rest, rfl, hskipped, _, hafter⟩ := List.filter_eq_cons_iff.mp hrest
  obtain ⟨hedge, hkept⟩ := hpart e he
  rw [← List.append_assoc] at h
  rcases List.mem_append.mp (h (l₁ ++ skipped) node rest rfl e hedge hnode) with hmem | hmem
  · rw [← hbefore]
    exact List.mem_filter.mpr ⟨hmem, hkept⟩
  · exact absurd hkept (hskipped _ hmem)

section Release

variable {remaining : α → ℤ} {l : List α} {n : α}

theorem release_remaining : (release remaining l).1 n = remaining n - l.count n := by
  induction l generalizing remaining with
  | nil => simp [release]
  | cons d rest ih =>
    rw [release, ih]
    by_cases h : n = d
    · subst h
      simp only [Function.update_self, List.count_cons_self]
      omega
    · simp only [Function.update_of_ne h, List.count_cons_of_ne (Ne.symm h)]

theorem count_le_update {d : α} (h : ∀ n, ((d :: l).count n : ℤ) ≤ remaining n) (n : α) :
    (l.count n : ℤ) ≤ Function.update remaining d (remaining d - 1) n := by
  have hn := h n
  by_cases hnd : n = d
  · subst hnd
    rw [List.count_cons_self] at hn
    simp only [Function.update_self]
    omega
  · rw [List.count_cons_of_ne (Ne.symm hnd)] at hn
    simpa only [Function.update_of_ne hnd] using hn

theorem mem_release (h : ∀ n, (l.count n : ℤ) ≤ remaining n) :
    n ∈ (release remaining l).2 ↔ n ∈ l ∧ remaining n = l.count n := by
  induction l generalizing remaining with
  | nil => simp [release]
  | cons d rest ih =>
    have hrest := count_le_update h
    have hd := h d
    rw [List.count_cons_self] at hd
    rw [release]
    by_cases hn : n = d
    · subst hn
      by_cases hzero : remaining n - 1 = 0
      · have hcount : rest.count n = 0 := by
          omega
        simp only [hzero, if_true, List.mem_cons, true_or, true_and, List.count_cons_self, true_iff]
        omega
      · simp only [hzero, if_false, ih hrest, Function.update_self, List.mem_cons, true_or,
          true_and, List.count_cons_self]
        constructor
        · rintro ⟨_, hr⟩
          omega
        · intro hr
          refine ⟨List.count_pos_iff.mp ?_, ?_⟩
          · omega
          · omega
    · have hsame : n ∈ (if remaining d - 1 = 0 then
          d :: (release (Function.update remaining d (remaining d - 1)) rest).2
          else (release (Function.update remaining d (remaining d - 1)) rest).2) ↔
          n ∈ (release (Function.update remaining d (remaining d - 1)) rest).2 := by
        split
        · rw [List.mem_cons]
          exact ⟨fun hmem => hmem.resolve_left hn, .inr⟩
        · exact Iff.rfl
      simp only [hsame, ih hrest, Function.update_of_ne hn, List.mem_cons, hn, false_or,
        List.count_cons_of_ne (Ne.symm hn)]

theorem nodup_release (h : ∀ n, (l.count n : ℤ) ≤ remaining n) : (release remaining l).2.Nodup := by
  induction l generalizing remaining with
  | nil => exact List.nodup_nil
  | cons d rest ih =>
    have hrest := count_le_update h
    rw [release]
    by_cases hzero : remaining d - 1 = 0
    · rw [if_pos hzero, List.nodup_cons]
      refine ⟨?_, ih hrest⟩
      rw [mem_release hrest]
      rintro ⟨hmem, hcount⟩
      rw [Function.update_self] at hcount
      have hpos := List.count_pos_iff.mpr hmem
      omega
    · rw [if_neg hzero]
      exact ih hrest

theorem release_eq (h : ∀ n, (l.count n : ℤ) ≤ remaining n) :
    (release remaining l).2 = l.dedup.filter fun n => remaining n = l.count n := by
  induction l generalizing remaining with
  | nil => rfl
  | cons d rest ih =>
    have hrest := count_le_update h
    have hd := h d
    rw [List.count_cons_self] at hd
    have hkept : (rest.dedup.filter fun n =>
        Function.update remaining d (remaining d - 1) n = rest.count n) =
        rest.dedup.filter fun n => remaining n = (d :: rest).count n := by
      apply List.filter_congr
      intro n _
      by_cases hn : n = d
      · subst hn
        simp only [Function.update_self, List.count_cons_self, decide_eq_decide]
        omega
      · simp only [Function.update_of_ne hn, List.count_cons_of_ne (Ne.symm hn)]
    rw [release]
    dsimp only
    rw [ih hrest, hkept]
    by_cases hmem : d ∈ rest
    · have hpos := List.count_pos_iff.mpr hmem
      rw [List.dedup_cons_of_mem hmem, if_neg (by omega)]
    · rw [List.dedup_cons_of_notMem hmem]
      have hzero := List.count_eq_zero_of_not_mem hmem
      by_cases hlast : remaining d - 1 = 0
      · rw [if_pos hlast, List.filter_cons_of_pos]
        simp [hzero]
        omega
      · rw [if_neg hlast, List.filter_cons_of_neg]
        simp [hzero]
        omega

end Release

/-- What holds while the queue is worked off: the counts are those of the edges to nodes that are
still to come, and the nodes whose count is zero are the ones in the order or in the queue. -/
structure Draining (nodes : List α) (edges : List (α × α)) (remaining : α → ℤ)
    (queue order : List α) : Prop where
  counts : ∀ n, remaining n = (edges.countP fun e => e.1 = n ∧ e.2 ∉ order)
  nodup : (order ++ queue).Nodup
  mem : ∀ n, n ∈ order ++ queue ↔ n ∈ nodes ∧ remaining n = 0
  respects : Respects edges order

section Draining

variable {nodes : List α} {edges : List (α × α)} {remaining : α → ℤ} {queue order : List α}
  {node n : α}

theorem count_dependents (edges : List (α × α)) (node n : α) :
    (dependents edges node).count n = edges.countP fun e => e.1 = n ∧ e.2 = node := by
  rw [dependents, List.count, List.countP_map, List.countP_filter]
  apply List.countP_congr
  intro e _
  simp

theorem Draining.remaining_eq (h : Draining nodes edges remaining (node :: queue) order) (n : α) :
    remaining n = ((dependents edges node).count n : ℤ) +
      (edges.countP fun e => e.1 = n ∧ e.2 ∉ order ++ [node]) := by
  have hnew : node ∉ order := by
    have hd := List.disjoint_of_nodup_append h.nodup
    exact fun hmem => hd hmem List.mem_cons_self
  rw [h.counts n, count_dependents, countP_snoc Prod.snd hnew edges]
  push_cast
  rfl

theorem Draining.count_le (h : Draining nodes edges remaining (node :: queue) order) (n : α) :
    ((dependents edges node).count n : ℤ) ≤ remaining n := by
  have hn := h.remaining_eq n
  omega

theorem Draining.step (endpoints : ∀ e ∈ edges, e.1 ∈ nodes)
    (h : Draining nodes edges remaining (node :: queue) order) :
    Draining nodes edges (release remaining (dependents edges node)).1
      (queue ++ (release remaining (dependents edges node)).2) (order ++ [node]) := by
  have hsplit := h.remaining_eq
  have hle := h.count_le
  have hperm : (order ++ [node] ++ (queue ++ (release remaining (dependents edges node)).2)) =
      (order ++ node :: queue) ++ (release remaining (dependents edges node)).2 := by
    simp
  constructor
  · intro n
    rw [release_remaining, hsplit n]
    omega
  · rw [hperm, List.nodup_append]
    refine ⟨h.nodup, nodup_release hle, ?_⟩
    rintro m hold _ hgiven rfl
    obtain ⟨hmem, hcount⟩ := (mem_release hle).mp hgiven
    have hpos := List.count_pos_iff.mpr hmem
    have hzero := ((h.mem m).mp hold).2
    omega
  · intro n
    rw [hperm, List.mem_append, h.mem, mem_release hle, release_remaining]
    constructor
    · rintro (⟨hmem, hzero⟩ | ⟨hmem, hcount⟩)
      · have hn := hle n
        refine ⟨hmem, ?_⟩
        omega
      · obtain ⟨e, he, rfl⟩ := List.mem_map.mp hmem
        refine ⟨endpoints e (List.mem_of_mem_filter he), ?_⟩
        omega
    · rintro ⟨hmem, hzero⟩
      by_cases hin : n ∈ dependents edges node
      · refine .inr ⟨hin, ?_⟩
        omega
      · rw [List.count_eq_zero_of_not_mem hin] at hzero
        refine .inl ⟨hmem, ?_⟩
        omega
  · apply h.respects.snoc
    intro e he hnode
    have hzero := ((h.mem node).mp (List.mem_append_right _ List.mem_cons_self)).2
    rw [h.counts node, Int.natCast_eq_zero, List.countP_eq_zero] at hzero
    by_contra hnot
    exact hzero e he (by simp [hnode, hnot])

theorem Draining.length_le (h : Draining nodes edges remaining queue order) :
    order.length + queue.length ≤ nodes.length := by
  rw [← List.length_append]
  exact (h.nodup.subperm fun n hn => ((h.mem n).mp hn).1).length_le

theorem drain_draining (endpoints : ∀ e ∈ edges, e.1 ∈ nodes) (fuel : ℕ)
    (h : Draining nodes edges remaining queue order) (hfuel : nodes.length ≤ order.length + fuel) :
    ∃ remaining', Draining nodes edges remaining' [] (drain edges fuel remaining queue order) := by
  induction fuel generalizing remaining queue order with
  | zero =>
    have hlength := h.length_le
    have hempty : queue = [] := by
      rw [← List.length_eq_zero_iff]
      omega
    subst hempty
    exact ⟨remaining, h⟩
  | succ fuel ih =>
    cases queue with
    | nil => exact ⟨remaining, h⟩
    | cons node queue =>
      rw [drain]
      apply ih (h.step endpoints)
      rw [List.length_append, List.length_singleton]
      omega

theorem draining_start (hnodes : nodes.Nodup) : Draining nodes edges (inDegree edges)
    (nodes.filter fun n => inDegree edges n = 0) [] where
  counts := by simp [inDegree]
  nodup := hnodes.filter _
  mem := by simp [List.mem_filter]
  respects := respects_nil edges

end Draining

section Kahn

variable {nodes : List α} {edges : List (α × α)}

theorem kahn_draining (hnodes : nodes.Nodup) (endpoints : ∀ e ∈ edges, e.1 ∈ nodes) :
    ∃ remaining, Draining nodes edges remaining [] (kahn nodes edges) :=
  drain_draining endpoints nodes.length (draining_start hnodes) (by simp)

theorem kahn_nodup (hnodes : nodes.Nodup) (endpoints : ∀ e ∈ edges, e.1 ∈ nodes) :
    (kahn nodes edges).Nodup := by
  obtain ⟨_, h⟩ := kahn_draining hnodes endpoints
  simpa using h.nodup

theorem kahn_subset (hnodes : nodes.Nodup) (endpoints : ∀ e ∈ edges, e.1 ∈ nodes) :
    kahn nodes edges ⊆ nodes := by
  obtain ⟨_, h⟩ := kahn_draining hnodes endpoints
  intro n hn
  exact ((h.mem n).mp (by simpa using hn)).1

theorem kahn_respects (hnodes : nodes.Nodup) (endpoints : ∀ e ∈ edges, e.1 ∈ nodes) :
    Respects edges (kahn nodes edges) := by
  obtain ⟨_, h⟩ := kahn_draining hnodes endpoints
  exact h.respects

variable {β : Type} {n : α} {order queue : List α} {remaining : α → ℤ}

theorem mem_kahn (hnodes : nodes.Nodup) (endpoints : ∀ e ∈ edges, e.1 ∈ nodes) (hn : n ∈ nodes)
    (hrequired : ∀ e ∈ edges, e.1 = n → e.2 ∈ kahn nodes edges) : n ∈ kahn nodes edges := by
  obtain ⟨remaining, h⟩ := kahn_draining hnodes endpoints
  have hzero : remaining n = 0 := by
    rw [h.counts n, Int.natCast_eq_zero, List.countP_eq_zero]
    intro e he hopen
    rw [decide_eq_true_eq] at hopen
    exact hopen.2 (hrequired e he hopen.1)
  have hmem := (h.mem n).mpr ⟨hn, hzero⟩
  simpa using hmem

theorem mem_kahn_of_respects (hnodes : nodes.Nodup) (endpoints : ∀ e ∈ edges, e.1 ∈ nodes)
    (targets : ∀ e ∈ edges, e.2 ∈ nodes) (horder : Respects edges order) (hn : n ∈ nodes)
    (hmem : n ∈ order) : n ∈ kahn nodes edges := by
  apply horder.induction (P := fun n => n ∈ nodes → n ∈ kahn nodes edges) ?_ n hmem hn
  intro node _ hrequired hnode
  apply mem_kahn hnodes endpoints hnode
  intro e he hrequires
  exact hrequired e he hrequires (targets e he)

theorem kahn_complete (hnodes : nodes.Nodup) (endpoints : ∀ e ∈ edges, e.1 ∈ nodes)
    (targets : ∀ e ∈ edges, e.2 ∈ nodes) (horder : Respects edges order) (hall : nodes ⊆ order) :
    nodes ⊆ kahn nodes edges :=
  fun _ hn => mem_kahn_of_respects hnodes endpoints targets horder hn (hall hn)

theorem dedup_filter [DecidableEq β] (p : β → Bool) (l : List β) :
    (l.filter p).dedup = l.dedup.filter p := by
  induction l with
  | nil => rfl
  | cons a rest ih =>
    by_cases hp : p a = true
    · rw [List.filter_cons_of_pos hp]
      by_cases hmem : a ∈ rest
      · rw [List.dedup_cons_of_mem (List.mem_filter.mpr ⟨hmem, hp⟩),
          List.dedup_cons_of_mem hmem, ih]
      · rw [List.dedup_cons_of_notMem fun h => hmem (List.mem_filter.mp h).1,
          List.dedup_cons_of_notMem hmem, List.filter_cons_of_pos hp, ih]
    · rw [List.filter_cons_of_neg hp, ih]
      by_cases hmem : a ∈ rest
      · rw [List.dedup_cons_of_mem hmem]
      · rw [List.dedup_cons_of_notMem hmem, List.filter_cons_of_neg hp]

theorem dedup_map [DecidableEq β] {f : β → α} {l : List β} (h : ∀ a ∈ l, ∀ b ∈ l, f a = f b → a = b) :
    (l.map f).dedup = l.dedup.map f := by
  induction l with
  | nil => rfl
  | cons a rest ih =>
    have hrest := ih fun b hb c hc => h b (List.mem_cons_of_mem _ hb) c (List.mem_cons_of_mem _ hc)
    rw [List.map_cons]
    by_cases hmem : a ∈ rest
    · rw [List.dedup_cons_of_mem (List.mem_map_of_mem hmem), List.dedup_cons_of_mem hmem, hrest]
    · rw [List.dedup_cons_of_notMem hmem, List.map_cons, ← hrest]
      apply List.dedup_cons_of_notMem
      intro hf
      obtain ⟨b, hb, hsame⟩ := List.mem_map.mp hf
      rw [h b (List.mem_cons_of_mem _ hb) a List.mem_cons_self hsame] at hb
      exact hmem hb

theorem dependents_dedup (edges : List (α × α)) (node : α) :
    dependents edges.dedup node = (dependents edges node).dedup := by
  rw [dependents, dependents, ← dedup_filter, dedup_map]
  intro a ha b hb hsame
  have ha2 := (List.mem_filter.mp ha).2
  have hb2 := (List.mem_filter.mp hb).2
  rw [decide_eq_true_eq] at ha2 hb2
  exact Prod.ext hsame (ha2.trans hb2.symm)

theorem Draining.released_eq {node : α} (h : Draining nodes edges remaining (node :: queue) order) :
    (release remaining (dependents edges node)).2 =
      (dependents edges node).dedup.filter fun n =>
        ∀ e ∈ edges, e.1 = n → e.2 ∈ order ++ [node] := by
  rw [release_eq h.count_le]
  apply List.filter_congr
  intro n _
  rw [decide_eq_decide, h.remaining_eq n]
  have hzero : (edges.countP fun e => e.1 = n ∧ e.2 ∉ order ++ [node]) = 0 ↔
      ∀ e ∈ edges, e.1 = n → e.2 ∈ order ++ [node] := by
    rw [List.countP_eq_zero]
    simp only [decide_eq_true_eq, not_and, not_not]
  rw [← hzero]
  omega

theorem drain_dedup (endpoints : ∀ e ∈ edges, e.1 ∈ nodes) {remaining' : α → ℤ} (fuel : ℕ)
    (h : Draining nodes edges remaining queue order)
    (h' : Draining nodes edges.dedup remaining' queue order) :
    drain edges fuel remaining queue order = drain edges.dedup fuel remaining' queue order := by
  induction fuel generalizing remaining remaining' queue order with
  | zero => rfl
  | succ fuel ih =>
    cases queue with
    | nil => rfl
    | cons node queue =>
      have hends : ∀ e ∈ edges.dedup, e.1 ∈ nodes := fun e he => endpoints e (List.mem_dedup.mp he)
      have hstep := h.step endpoints
      have hstep' := h'.step hends
      have hsame : (release remaining (dependents edges node)).2 =
          (release remaining' (dependents edges.dedup node)).2 := by
        rw [h.released_eq, h'.released_eq, dependents_dedup, List.dedup_idem]
        simp only [List.mem_dedup]
      rw [← hsame] at hstep'
      rw [drain, drain, ← hsame]
      exact ih hstep hstep'

theorem kahn_dedup (hnodes : nodes.Nodup) (endpoints : ∀ e ∈ edges, e.1 ∈ nodes) :
    kahn nodes edges = kahn nodes edges.dedup := by
  have hstart : (nodes.filter fun n => inDegree edges n = 0) =
      nodes.filter fun n => inDegree edges.dedup n = 0 := by
    apply List.filter_congr
    intro n _
    rw [decide_eq_decide, inDegree, inDegree, Int.natCast_eq_zero, Int.natCast_eq_zero,
      List.countP_eq_zero, List.countP_eq_zero]
    simp only [List.mem_dedup]
  have hdraining : Draining nodes edges.dedup (inDegree edges.dedup)
      (nodes.filter fun n => inDegree edges.dedup n = 0) [] := draining_start hnodes
  rw [kahn, kahn, ← hstart]
  rw [← hstart] at hdraining
  exact drain_dedup endpoints nodes.length (draining_start hnodes) hdraining

end Kahn

/-- The nodes that are not known yet, each once. -/
def fresh : List α → List α → List α
  | _, [] => []
  | known, node :: rest =>
    if node ∈ known then fresh known rest else node :: fresh (known ++ [node]) rest

def spread (edges : List (α × α)) : ℕ → List α → List α → List α
  | 0, known, _ => known
  | _ + 1, known, [] => known
  | fuel + 1, known, node :: queue =>
    let found := fresh known (dependents edges node)
    spread edges fuel (known ++ found) (queue ++ found)

def affected (edges : List (α × α)) (changed : List α) : List α :=
  spread edges (changed.length + edges.length) changed changed

section Affected

variable {edges : List (α × α)} {known queue changed l : List α} {n : α}

theorem mem_fresh : n ∈ fresh known l ↔ n ∈ l ∧ n ∉ known := by
  induction l generalizing known with
  | nil => simp [fresh]
  | cons d rest ih =>
    rw [fresh]
    by_cases hd : d ∈ known
    · rw [if_pos hd, ih, List.mem_cons]
      constructor
      · rintro ⟨hn, hk⟩
        exact ⟨.inr hn, hk⟩
      · rintro ⟨rfl | hn, hk⟩
        · exact absurd hd hk
        · exact ⟨hn, hk⟩
    · rw [if_neg hd, List.mem_cons, ih]
      by_cases hn : n = d
      · simp [hn, hd]
      · simp [hn]

theorem length_fresh (known : List α) (h : ∀ n ∈ l, ∃ e ∈ edges, e.1 = n) :
    (fresh known l).length + (edges.countP fun e => e.1 ∉ known ++ fresh known l) ≤
      edges.countP fun e => e.1 ∉ known := by
  induction l generalizing known with
  | nil => simp [fresh]
  | cons d rest ih =>
    have hrest := fun n hn => h n (List.mem_cons_of_mem d hn)
    rw [fresh]
    by_cases hd : d ∈ known
    · rw [if_pos hd]
      exact ih known hrest
    · rw [if_neg hd, List.length_cons]
      have hnext := ih (known ++ [d]) hrest
      rw [List.append_assoc, List.singleton_append] at hnext
      obtain ⟨e, he, hde⟩ := h d List.mem_cons_self
      have hsplit := countP_snoc (p := fun _ => True) Prod.fst hd edges
      simp only [true_and] at hsplit
      have hpos : 0 < edges.countP fun e => e.1 = d := by
        rw [List.countP_pos_iff]
        exact ⟨e, he, by simpa using hde⟩
      omega

theorem spread_closed (fuel : ℕ) (hfuel : queue.length + (edges.countP fun e => e.1 ∉ known) ≤ fuel)
    (hopen : ∀ e ∈ edges, e.2 ∈ known → e.1 ∈ known ∨ e.2 ∈ queue) :
    known ⊆ spread edges fuel known queue ∧
      ∀ e ∈ edges, e.2 ∈ spread edges fuel known queue → e.1 ∈ spread edges fuel known queue := by
  induction fuel generalizing known queue with
  | zero =>
    have hempty : queue = [] := by
      rw [← List.length_eq_zero_iff]
      omega
    subst hempty
    refine ⟨fun _ hn => hn, fun e he hmem => ?_⟩
    exact (hopen e he hmem).resolve_right List.not_mem_nil
  | succ fuel ih =>
    cases queue with
    | nil =>
      refine ⟨fun _ hn => hn, fun e he hmem => ?_⟩
      exact (hopen e he hmem).resolve_right List.not_mem_nil
    | cons node queue =>
      have hfrom : ∀ n ∈ dependents edges node, ∃ e ∈ edges, e.1 = n := by
        intro n hn
        obtain ⟨e, he, hen⟩ := List.mem_map.mp hn
        exact ⟨e, List.mem_of_mem_filter he, hen⟩
      have hlength := length_fresh known hfrom
      have hnew : ∀ n, n ∈ fresh known (dependents edges node) ↔
          n ∈ dependents edges node ∧ n ∉ known := fun _ => mem_fresh
      rw [spread]
      generalize fresh known (dependents edges node) = found at hlength hnew ⊢
      have hless : (queue ++ found).length + (edges.countP fun e => e.1 ∉ known ++ found) ≤ fuel := by
        rw [List.length_cons] at hfuel
        rw [List.length_append]
        omega
      have hnext : ∀ e ∈ edges, e.2 ∈ known ++ found → e.1 ∈ known ++ found ∨
          e.2 ∈ queue ++ found := by
        intro e he hmem
        by_cases hnode : e.2 = node
        · by_cases hknown : e.1 ∈ known
          · exact .inl (List.mem_append_left _ hknown)
          · have hdependent : e.1 ∈ dependents edges node :=
              List.mem_map.mpr ⟨e, List.mem_filter.mpr ⟨he, by simpa using hnode⟩, rfl⟩
            exact .inl (List.mem_append_right _ ((hnew e.1).mpr ⟨hdependent, hknown⟩))
        · rcases List.mem_append.mp hmem with hold | hfound
          · rcases hopen e he hold with hknown | hqueue
            · exact .inl (List.mem_append_left _ hknown)
            · have hlater := (List.mem_cons.mp hqueue).resolve_left hnode
              exact .inr (List.mem_append_left _ hlater)
          · exact .inr (List.mem_append_right _ hfound)
      obtain ⟨hsub, hclosed⟩ := ih hless hnext
      exact ⟨fun n hn => hsub (List.mem_append_left _ hn), hclosed⟩

theorem affected_spec : changed ⊆ affected edges changed ∧
    ∀ e ∈ edges, e.2 ∈ affected edges changed → e.1 ∈ affected edges changed := by
  apply spread_closed
  · have hle := List.countP_le_length (p := fun e => decide (e.1 ∉ changed)) (l := edges)
    omega
  · intro e _ hmem
    exact .inr hmem

end Affected

end DependencyOrder

import Lumo.DependencyOrder

/-! # Runs over cells

Every cell is computed once, from what the cells it requires hold, and from what it holds itself.
A run goes through a list of cells and stops at the first that cannot be computed. -/
namespace CellRuns

variable {κ ν ε ρ : Type} [DecidableEq κ]

abbrev Compute (κ ν ε ρ : Type) := κ → (κ → ν) → Except ε (ν × ρ)

def run (compute : Compute κ ν ε ρ) : List κ → (κ → ν) → Except ε ((κ → ν) × List ρ)
  | [], cells => .ok (cells, [])
  | cell :: rest, cells => do
    let (held, report) ← compute cell cells
    let (final, reports) ← run compute rest (Function.update cells cell held)
    return (final, report :: reports)

def Reads (edges : List (κ × κ)) (compute : Compute κ ν ε ρ) : Prop :=
  ∀ cell cells cells', cells cell = cells' cell →
    (∀ e ∈ edges, e.1 = cell → cells e.2 = cells' e.2) → compute cell cells = compute cell cells'

/-- No cell comes twice, and none requires a later one. -/
def Ordered (edges : List (κ × κ)) (l : List κ) : Prop :=
  l.Pairwise fun a b => a ≠ b ∧ (a, b) ∉ edges

omit [DecidableEq κ] in
theorem forall₂_congr {R S : κ → ρ → Prop} {l : List κ} {reports : List ρ}
    (h : ∀ cell ∈ l, ∀ report, R cell report ↔ S cell report) :
    List.Forall₂ R l reports ↔ List.Forall₂ S l reports := by
  rw [List.forall₂_iff_zip, List.forall₂_iff_zip]
  refine and_congr_right fun _ => ?_
  exact ⟨fun hall _ _ hmem => (h _ (List.of_mem_zip hmem).1 _).mp (hall hmem),
    fun hall _ _ hmem => (h _ (List.of_mem_zip hmem).1 _).mpr (hall hmem)⟩

omit [DecidableEq κ] in
theorem exists_forall₂ {R : κ → ρ → Prop} {l : List κ} :
    (∃ reports, List.Forall₂ R l reports) ↔ ∀ cell ∈ l, ∃ report, R cell report := by
  induction l with
  | nil => simp
  | cons cell rest ih =>
    rw [List.forall_mem_cons, ← ih]
    constructor
    · rintro ⟨_, h⟩
      cases h with
      | cons hfirst hrest => exact ⟨⟨_, hfirst⟩, _, hrest⟩
    · rintro ⟨⟨report, hfirst⟩, reports, hrest⟩
      exact ⟨report :: reports, .cons hfirst hrest⟩

omit [DecidableEq κ] in
theorem mem_of_forall₂ {R : κ → ρ → Prop} {l : List κ} {reports : List ρ}
    (hunique : ∀ cell report report', R cell report → R cell report' → report = report')
    (h : List.Forall₂ R l reports) {report : ρ} : report ∈ reports ↔ ∃ cell ∈ l, R cell report := by
  induction h with
  | nil => simp
  | cons hfirst _ ih =>
    rw [List.mem_cons, ih, List.exists_mem_cons_iff]
    constructor
    · rintro (rfl | hrest)
      · exact .inl hfirst
      · exact .inr hrest
    · rintro (hother | hrest)
      · exact .inl (hunique _ _ _ hother hfirst)
      · exact .inr hrest

def Computed (compute : Compute κ ν ε ρ) (cells final : κ → ν) (cell : κ) (report : ρ) : Prop :=
  compute cell (Function.update final cell (cells cell)) = .ok (final cell, report)

section Run

variable {compute : Compute κ ν ε ρ} {edges : List (κ × κ)} {l full part : List κ}
  {cells final : κ → ν} {reports : List ρ}

variable {cell : κ}

theorem run_cons :
    run compute (cell :: l) cells = .ok (final, reports) ↔
      ∃ held report rest, compute cell cells = .ok (held, report) ∧
        run compute l (Function.update cells cell held) = .ok (final, rest) ∧
        reports = report :: rest := by
  rw [run]
  cases hstep : compute cell cells with
  | error e => simp [bind, Except.bind]
  | ok out =>
    obtain ⟨held, report⟩ := out
    simp only [bind, Except.bind]
    cases hrest : run compute l (Function.update cells cell held) with
    | error e => simp [hrest]
    | ok out =>
      obtain ⟨final', rest⟩ := out
      constructor
      · rintro ⟨⟩
        exact ⟨held, report, rest, rfl, hrest, rfl⟩
      · rintro ⟨_, _, rest', ⟨⟩, hrest', rfl⟩
        rw [hrest] at hrest'
        cases hrest'
        rfl

theorem Ordered.compute_first (hreads : Reads edges compute) (hl : Ordered edges (cell :: l))
    (hsame : ∀ other, other ∉ cell :: l → final other = cells other) :
    compute cell cells = compute cell (Function.update final cell (cells cell)) := by
  obtain ⟨hcell, _⟩ := List.pairwise_cons.mp hl
  apply hreads
  · rw [Function.update_self]
  · intro e he hfrom
    by_cases heq : e.2 = cell
    · rw [heq, Function.update_self]
    · rw [Function.update_of_ne heq, hsame]
      rw [List.mem_cons]
      rintro (hself | hlater)
      · exact heq hself
      · apply (hcell e.2 hlater).2
        rw [← hfrom]
        exact he

theorem Ordered.computed_rest {other : κ} {held : ν} {report : ρ} (hl : Ordered edges (cell :: l))
    (hother : other ∈ l) :
    Computed compute (Function.update cells cell held) final other report ↔
      Computed compute cells final other report := by
  obtain ⟨hcell, _⟩ := List.pairwise_cons.mp hl
  rw [Computed, Function.update_of_ne (Ne.symm (hcell other hother).1), Computed]

theorem outside_cons {held : ν} (hnew : cell ∉ l) :
    (∀ other, other ∉ l → final other = Function.update cells cell held other) ↔
      final cell = held ∧ ∀ other, other ∉ cell :: l → final other = cells other := by
  constructor
  · intro hsame
    refine ⟨?_, fun other hother => ?_⟩
    · rw [hsame cell hnew, Function.update_self]
    · rw [List.mem_cons, not_or] at hother
      rw [hsame other hother.2, Function.update_of_ne hother.1]
  · rintro ⟨hheld, hsame⟩ other hother
    by_cases heq : other = cell
    · rw [heq, Function.update_self, hheld]
    · rw [Function.update_of_ne heq, hsame]
      rw [List.mem_cons, not_or]
      exact ⟨heq, hother⟩

/-- In whichever order a run goes, each cell is computed from what the others hold at its end. -/
theorem run_iff (hreads : Reads edges compute) (hl : Ordered edges l) :
    run compute l cells = .ok (final, reports) ↔
      (∀ cell, cell ∉ l → final cell = cells cell) ∧
        List.Forall₂ (Computed compute cells final) l reports := by
  induction l generalizing cells reports with
  | nil =>
    constructor
    · rintro ⟨⟩
      exact ⟨fun _ _ => rfl, .nil⟩
    · rintro ⟨hsame, hreports⟩
      cases hreports
      have heq : final = cells := funext fun cell => hsame cell List.not_mem_nil
      rw [heq]
      rfl
  | cons cell rest ih =>
    obtain ⟨hcell, hrest⟩ := List.pairwise_cons.mp hl
    have hnew : cell ∉ rest := fun hmem => (hcell cell hmem).1 rfl
    have hothers : ∀ held, ∀ other ∈ rest, ∀ report,
        Computed compute (Function.update cells cell held) final other report ↔
          Computed compute cells final other report :=
      fun _ _ hother _ => hl.computed_rest hother
    rw [run_cons]
    constructor
    · rintro ⟨held, report, rest', hstep, hrun, rfl⟩
      obtain ⟨hsame, hreports⟩ := (ih hrest).mp hrun
      obtain ⟨hheld, hfinal⟩ := (outside_cons hnew).mp hsame
      refine ⟨hfinal, .cons ?_ ((forall₂_congr (hothers held)).mp hreports)⟩
      rw [Computed, ← hl.compute_first hreads hfinal, hstep, hheld]
    · rintro ⟨hsame, hreports⟩
      cases hreports with
      | @cons _ report _ rest' hstep hreports =>
        refine ⟨final cell, report, rest', ?_, (ih hrest).mpr ⟨?_, ?_⟩, rfl⟩
        · rw [hl.compute_first hreads hsame, hstep]
        · exact (outside_cons hnew).mpr ⟨rfl, hsame⟩
        · exact (forall₂_congr (hothers (final cell))).mpr hreports

theorem exists_run_iff (hreads : Reads edges compute) (hl : Ordered edges l) :
    (∃ reports, run compute l cells = .ok (final, reports)) ↔
      (∀ cell, cell ∉ l → final cell = cells cell) ∧
        ∀ cell ∈ l, ∃ report, Computed compute cells final cell report := by
  rw [← exists_forall₂, ← exists_and_left]
  exact exists_congr fun reports => run_iff hreads hl

theorem mem_reports (hreads : Reads edges compute) (hl : Ordered edges l)
    (h : run compute l cells = .ok (final, reports)) {report : ρ} :
    report ∈ reports ↔ ∃ cell ∈ l, Computed compute cells final cell report := by
  apply mem_of_forall₂ ?_ ((run_iff hreads hl).mp h).2
  intro cell report report' hfirst hsecond
  rw [Computed] at hfirst hsecond
  rw [hfirst] at hsecond
  cases hsecond
  rfl

end Run

section Part

variable {compute : Compute κ ν ε ρ} {edges : List (κ × κ)} {full part : List κ}
  {cells final : κ → ν}

/-- Where the cells left out are computed to what they hold, and require none of the part, a run
over the part ends as one over all cells does. -/
theorem run_part {order : List κ} (hreads : Reads edges compute)
    (hrespects : DependencyOrder.Respects edges order) (hfull : Ordered edges full)
    (horder : full ⊆ order) (hpart : Ordered edges part) (hsub : part ⊆ full)
    (hclosed : ∀ e ∈ edges, e.1 ∈ full → e.2 ∈ part → e.1 ∈ part)
    (hsettled : ∀ cell ∈ full, cell ∉ part →
      ∃ report, compute cell cells = .ok (cells cell, report)) :
    (∃ reports, run compute full cells = .ok (final, reports)) ↔
      ∃ reports, run compute part cells = .ok (final, reports) := by
  rw [exists_run_iff hreads hfull, exists_run_iff hreads hpart]
  -- What is left out reads nothing that the part computes.
  have hleft : ∀ cell ∈ full, cell ∉ part →
      (∀ e ∈ edges, e.1 = cell → final e.2 = cells e.2) →
        ∃ report, compute cell (Function.update final cell (cells cell)) =
          .ok (cells cell, report) := by
    intro cell hcell hnot hsame
    obtain ⟨report, hreport⟩ := hsettled cell hcell hnot
    refine ⟨report, ?_⟩
    rw [← hreport]
    apply hreads
    · rw [Function.update_self]
    · intro e he hfrom
      by_cases heq : e.2 = cell
      · rw [heq, Function.update_self]
      · rw [Function.update_of_ne heq]
        exact hsame e he hfrom
  have houtside : ∀ cell ∈ full, cell ∉ part → ∀ e ∈ edges, e.1 = cell → e.2 ∉ part := by
    rintro cell hcell hnot e he rfl hmem
    exact hnot (hclosed e he hcell hmem)
  constructor
  · rintro ⟨hsame, hcomputed⟩
    refine ⟨?_, fun cell hcell => hcomputed cell (hsub hcell)⟩
    have hkept := hrespects.induction (P := fun cell => cell ∉ part → final cell = cells cell) ?_
    · intro cell hnot
      by_cases hcell : cell ∈ full
      · exact hkept cell (horder hcell) hnot
      · exact hsame cell hcell
    · intro cell _ hrequired hnot
      by_cases hcell : cell ∈ full
      · obtain ⟨report, hreport⟩ := hleft cell hcell hnot fun e he hfrom =>
          hrequired e he hfrom (houtside cell hcell hnot e he hfrom)
        obtain ⟨report', hreport'⟩ := hcomputed cell hcell
        rw [Computed, hreport, Except.ok.injEq, Prod.mk.injEq] at hreport'
        exact hreport'.1.symm
      · exact hsame cell hcell
  · rintro ⟨hsame, hcomputed⟩
    refine ⟨fun cell hcell => hsame cell fun hmem => hcell (hsub hmem), fun cell hcell => ?_⟩
    by_cases hmem : cell ∈ part
    · exact hcomputed cell hmem
    · obtain ⟨report, hreport⟩ := hleft cell hcell hmem fun e he hfrom =>
        hsame e.2 (houtside cell hcell hmem e he hfrom)
      refine ⟨report, ?_⟩
      rw [Computed, hreport, hsame cell hmem]

end Part

end CellRuns

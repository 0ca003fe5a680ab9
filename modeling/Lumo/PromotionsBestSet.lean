import Mathlib.Data.List.Lex
import Mathlib.Data.Prod.Lex
import Lumo.PromotionsDiscountConservation

/-! # The set of discounts that is chosen

Up to ten eligible discounts every compatible set is tried, and the best by `isBetter` is kept. -/
namespace Promotions

open SharedKernel Builtins

theorem isCompatible_iff (set : List Eligible) :
    isCompatible set = true ↔ set.Pairwise fun a b => canCombine a b = true := by
  induction set with
  | nil => simp [isCompatible]
  | cons entry rest ih =>
    rw [isCompatible, Bool.and_eq_true, List.all_eq_true, ih, List.pairwise_cons]

theorem subsetOf_cons (entry : Eligible) (rest : List Eligible) (mask : ℕ) :
    subsetOf (entry :: rest) mask =
      (if mask.testBit 0 then [entry] else []) ++ subsetOf rest (mask / 2) := by
  have hrest : ((rest.zipIdx 1).filter fun e => mask.testBit e.2).map Prod.fst =
      subsetOf rest (mask / 2) := by
    rw [subsetOf, List.zipIdx_succ, List.filter_map, List.map_map]
    apply congrArg (List.map Prod.fst)
    apply List.filter_congr
    intro e _
    exact Nat.testBit_succ mask e.2
  rw [subsetOf, List.zipIdx_cons, List.filter_cons]
  split
  · rw [List.map_cons, hrest]
    rfl
  · rw [hrest]
    rfl

theorem exists_mask {eligible set : List Eligible} (h : set.Sublist eligible) :
    ∃ mask < 2 ^ eligible.length, subsetOf eligible mask = set := by
  induction h with
  | slnil => exact ⟨0, by simp, rfl⟩
  | @cons set rest entry _ ih =>
    obtain ⟨mask, hmask, hset⟩ := ih
    refine ⟨2 * mask, ?_, ?_⟩
    · rw [List.length_cons, pow_succ]
      omega
    · have hhalf : 2 * mask / 2 = mask := by omega
      rw [subsetOf_cons, hhalf, hset]
      simp
  | @cons_cons set rest entry _ ih =>
    obtain ⟨mask, hmask, hset⟩ := ih
    refine ⟨2 * mask + 1, ?_, ?_⟩
    · rw [List.length_cons, pow_succ]
      omega
    · have hhalf : (2 * mask + 1) / 2 = mask := by omega
      rw [subsetOf_cons, hhalf, hset]
      simp

/-- What `isBetter` compares, the first difference deciding. -/
def Chosen.rank (a : Chosen) : ℚ ×ₗ ℕ ×ₗ (List ℕ)ᵒᵈ :=
  toLex (a.total, toLex (a.codeCount, OrderDual.toDual (codeUnits a.key)))

theorem isBetter_iff (a b : Chosen) : isBetter a b = true ↔ b.rank < a.rank := by
  rw [isBetter, Chosen.rank, Chosen.rank, Prod.Lex.toLex_lt_toLex, Prod.Lex.toLex_lt_toLex,
    OrderDual.toDual_lt_toDual]
  by_cases htotal : a.total = b.total
  · by_cases hcodes : a.codeCount = b.codeCount
    · simp [htotal, hcodes, lessThan]
    · simp [htotal, hcodes, Ne.symm hcodes]
  · simp [htotal, Ne.symm htotal]

theorem not_isBetter_iff (a b : Chosen) : isBetter a b = false ↔ a.rank ≤ b.rank := by
  rw [← not_lt, ← isBetter_iff, Bool.not_eq_true]

theorem total_le_of_rank {a b : Chosen} (h : a.rank ≤ b.rank) : a.total ≤ b.total := by
  rw [Chosen.rank, Chosen.rank, Prod.Lex.toLex_le_toLex] at h
  rcases h with h | h
  · exact h.le
  · exact h.1.le

section Search

variable {text : TextOps} {fuel : ℕ} {eligible : List Eligible} {input : CalculateDiscountsInput}

def Candidate (text : TextOps) (fuel : ℕ) (eligible : List Eligible)
    (input : CalculateDiscountsInput) (best : Chosen) : Prop :=
  best.set.Sublist eligible ∧ isCompatible best.set = true ∧
    choose text fuel input best.set = some best

variable {best : Chosen}

theorem tryMask_some {next : Chosen} {mask : ℕ}
    (h : tryMask text fuel eligible input best mask = some next) :
    best.rank ≤ next.rank ∧ (next = best ∨ Candidate text fuel eligible input next) ∧
      (isCompatible (subsetOf eligible mask) = true →
        ∃ candidate, choose text fuel input (subsetOf eligible mask) = some candidate ∧
          candidate.rank ≤ next.rank) := by
  rw [tryMask] at h
  split at h
  · rename_i hcompatible
    obtain ⟨candidate, hcandidate, h⟩ := Option.bind_eq_some_iff.mp h
    have hset := (choose_some hcandidate).1
    cases hbetter : isBetter candidate best with
    | true =>
      rw [hbetter, if_pos rfl] at h
      obtain rfl := Option.some.inj h
      refine ⟨((isBetter_iff _ _).mp hbetter).le, Or.inr ⟨?_, ?_, ?_⟩, ?_⟩
      · rw [hset]
        exact subsetOf_sublist eligible mask
      · rw [hset]
        exact hcompatible
      · rw [hset]
        exact hcandidate
      · exact fun _ => ⟨_, hcandidate, le_rfl⟩
    | false =>
      rw [hbetter, if_neg Bool.false_ne_true] at h
      obtain rfl := Option.some.inj h
      have hrank := (not_isBetter_iff _ _).mp hbetter
      exact ⟨le_rfl, Or.inl rfl, fun _ => ⟨candidate, hcandidate, hrank⟩⟩
  · rename_i hincompatible
    obtain rfl := Option.some.inj h
    exact ⟨le_rfl, Or.inl rfl, fun hcompatible => absurd hcompatible hincompatible⟩

theorem tryMasks_some {masks : List ℕ} {last : Chosen}
    (h : masks.foldlM (tryMask text fuel eligible input) best = some last) :
    best.rank ≤ last.rank ∧ (last = best ∨ Candidate text fuel eligible input last) ∧
      ∀ mask ∈ masks, isCompatible (subsetOf eligible mask) = true →
        ∃ candidate, choose text fuel input (subsetOf eligible mask) = some candidate ∧
          candidate.rank ≤ last.rank := by
  induction masks generalizing best with
  | nil =>
    cases h
    exact ⟨le_rfl, Or.inl rfl, List.forall_mem_nil _⟩
  | cons mask rest ih =>
    rw [List.foldlM_cons] at h
    obtain ⟨next, hnext, hrest⟩ := Option.bind_eq_some_iff.mp h
    obtain ⟨hle, hfrom, htried⟩ := tryMask_some hnext
    obtain ⟨hle', hfrom', htried'⟩ := ih hrest
    refine ⟨hle.trans hle', ?_, ?_⟩
    · rcases hfrom' with rfl | hcandidate
      · exact hfrom
      · exact Or.inr hcandidate
    · rw [List.forall_mem_cons]
      refine ⟨fun hcompatible => ?_, htried'⟩
      obtain ⟨candidate, hcandidate, hrank⟩ := htried hcompatible
      exact ⟨candidate, hcandidate, hrank.trans hle'⟩

theorem bestSet_exhaustive (hlimit : eligible.length ≤ exhaustiveLimit)
    (h : bestSet text fuel eligible input = some best) :
    Candidate text fuel eligible input best ∧
      ∀ set, set.Sublist eligible → isCompatible set = true →
        ∃ candidate, choose text fuel input set = some candidate ∧
          candidate.rank ≤ best.rank := by
  rw [bestSet, if_pos hlimit] at h
  obtain ⟨none, hnone, h⟩ := Option.bind_eq_some_iff.mp h
  obtain ⟨hle, hfrom, htried⟩ := tryMasks_some h
  refine ⟨?_, ?_⟩
  · rcases hfrom with rfl | hcandidate
    · have hset := (choose_some hnone).1
      refine ⟨?_, ?_, ?_⟩
      · rw [hset]
        exact List.nil_sublist _
      · rw [hset]
        rfl
      · rw [hset]
        exact hnone
    · exact hcandidate
  · intro set hset hcompatible
    obtain ⟨mask, hmask, rfl⟩ := exists_mask hset
    by_cases hzero : mask = 0
    · subst hzero
      have hempty : subsetOf eligible 0 = [] := by simp [subsetOf]
      rw [hempty]
      exact ⟨none, hnone, hle⟩
    · apply htried mask _ hcompatible
      rw [List.mem_range'_1]
      omega

end Search

theorem bestSet_returns_iff (text : TextOps) (input : CalculateDiscountsInput) :
    (∃ fuel, (bestSet text fuel (eligibleFor text input) input).isSome) ↔
      ∀ e ∈ eligibleFor text input, ¬ Endless e.candidate.promotion := by
  rw [← returns_iff text input]
  constructor
  · rintro ⟨fuel, h⟩
    obtain ⟨best, hbest⟩ := Option.isSome_iff_exists.mp h
    exact ⟨_, fuel, by rw [calculateDiscounts, hbest]; rfl⟩
  · rintro ⟨result, fuel, h⟩
    obtain ⟨best, hbest, _⟩ := Option.bind_eq_some_iff.mp h
    exact ⟨fuel, Option.isSome_iff_exists.mpr ⟨best, hbest⟩⟩

/-- With few enough discounts eligible the choice is the best there is: a compatible set that no
compatible set is better than, in what it saves or, at the same saving, by `isBetter`. -/
theorem bestSet_optimal (text : TextOps) (input : CalculateDiscountsInput)
    (hlimit : (eligibleFor text input).length ≤ exhaustiveLimit) :
    ((∃ fuel, (bestSet text fuel (eligibleFor text input) input).isSome) ↔
        ∀ e ∈ eligibleFor text input, ¬ Endless e.candidate.promotion) ∧
      ∀ fuel best, bestSet text fuel (eligibleFor text input) input = some best →
        best.set.Sublist (eligibleFor text input) ∧
        (best.set.Pairwise fun a b => canCombine a b = true) ∧
        applySet text fuel best.set input = some best.toApplication ∧
        ∀ set, set.Sublist (eligibleFor text input) →
          (set.Pairwise fun a b => canCombine a b = true) →
          ∃ candidate : Chosen, candidate.set = set ∧
            applySet text fuel set input = some candidate.toApplication ∧
            candidate.total ≤ best.total ∧ isBetter candidate best = false := by
  refine ⟨bestSet_returns_iff text input, ?_⟩
  intro fuel best hbest
  obtain ⟨⟨hsub, hcompatible, hchosen⟩, htried⟩ := bestSet_exhaustive hlimit hbest
  refine ⟨hsub, (isCompatible_iff _).mp hcompatible, (choose_some hchosen).2, ?_⟩
  intro set hset hpairwise
  obtain ⟨candidate, hcandidate, hrank⟩ := htried set hset ((isCompatible_iff set).mpr hpairwise)
  obtain ⟨heq, happlied⟩ := choose_some hcandidate
  refine ⟨candidate, heq, ?_, total_le_of_rank hrank, (not_isBetter_iff _ _).mpr hrank⟩
  rw [← heq]
  exact happlied

theorem bestSet_optimal_tenPercent :
    ∃ best, bestSet sampleText 0 (eligibleFor sampleText (cartWith tenPercentOff))
        (cartWith tenPercentOff) = some best ∧
      best.set.Pairwise fun a b => canCombine a b = true := by
  have hsome : (bestSet sampleText 0 (eligibleFor sampleText (cartWith tenPercentOff))
      (cartWith tenPercentOff)).isSome := by decide +kernel
  obtain ⟨best, hbest⟩ := Option.isSome_iff_exists.mp hsome
  have hlimit : (eligibleFor sampleText (cartWith tenPercentOff)).length ≤ exhaustiveLimit := by
    decide +kernel
  obtain ⟨_, hoptimal⟩ := bestSet_optimal sampleText (cartWith tenPercentOff) hlimit
  exact ⟨best, hbest, (hoptimal 0 best hbest).2.1⟩

theorem eligibleFor_sublist {text : TextOps} {input : CalculateDiscountsInput}
    {more : List DiscountCandidate} (h : input.candidates.Sublist more) :
    (eligibleFor text input).Sublist (eligibleFor text { input with candidates := more }) :=
  (h.map _).filterMap _

/-- A shop that offers more discounts, wherever they stand in its list, never saves a customer less
by the set it chooses, as long as every compatible set is tried. -/
theorem bestSet_moreCandidates {text : TextOps} {fuel : ℕ} {input : CalculateDiscountsInput}
    {more : List DiscountCandidate} {best after : Chosen} (hmore : input.candidates.Sublist more)
    (hlimit : (eligibleFor text { input with candidates := more }).length ≤ exhaustiveLimit)
    (hbest : bestSet text fuel (eligibleFor text input) input = some best)
    (hafter : bestSet text fuel (eligibleFor text { input with candidates := more })
      { input with candidates := more } = some after) :
    best.total ≤ after.total ∧ isBetter best after = false := by
  have hsub := @eligibleFor_sublist text _ _ hmore
  obtain ⟨⟨hset, hcompatible, hchosen⟩, _⟩ := bestSet_exhaustive (hsub.length_le.trans hlimit) hbest
  obtain ⟨_, htried⟩ := bestSet_exhaustive hlimit hafter
  obtain ⟨candidate, hcandidate, hrank⟩ := htried best.set (hset.trans hsub) hcompatible
  -- a set is worth the same whatever else is offered
  obtain rfl : best = candidate := Option.some.inj (hchosen.symm.trans hcandidate)
  exact ⟨total_le_of_rank hrank, (not_isBetter_iff _ _).mpr hrank⟩

/-- Ten per cent off, and then the same discount once more. -/
theorem bestSet_moreCandidates_twice : ∃ best after : Chosen,
    bestSet sampleText 0 (eligibleFor sampleText (cartWith tenPercentOff))
      (cartWith tenPercentOff) = some best ∧ best.total ≤ after.total := by
  let more := (cartWith tenPercentOff).candidates ++ (cartWith tenPercentOff).candidates
  have hsome : (bestSet sampleText 0 (eligibleFor sampleText (cartWith tenPercentOff))
      (cartWith tenPercentOff)).isSome := by decide +kernel
  have hsome' : (bestSet sampleText 0
      (eligibleFor sampleText { cartWith tenPercentOff with candidates := more })
      { cartWith tenPercentOff with candidates := more }).isSome := by decide +kernel
  obtain ⟨best, hbest⟩ := Option.isSome_iff_exists.mp hsome
  obtain ⟨after, hafter⟩ := Option.isSome_iff_exists.mp hsome'
  exact ⟨best, after, hbest, (bestSet_moreCandidates (List.sublist_append_left _ _)
    (by decide +kernel) hbest hafter).1⟩

end Promotions

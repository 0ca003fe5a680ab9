import Lumo.FallibleFolds
import Lumo.PromotionsDiscountCalculator

/-! # When the calculation comes to an end

Only the loop over the uses of buy X get Y can go on for ever: it does when a use neither buys
nor gets an item and nothing limits the uses. -/
namespace Promotions

open SharedKernel Builtins

section Uses

variable {maxUses : Option ℚ} {buys gets : ℚ} {buysOrder getsOrder : List Item}

theorem unused_sublist (used more : List ℕ) (items : List Item) :
    (unused (used ++ more) items).Sublist (unused used items) := by
  apply List.monotone_filter_right
  intro i hi
  simp only [Bool.not_eq_true', List.contains_eq_mem, List.mem_append, decide_eq_false_iff_not,
    not_or] at *
  exact hi.1

theorem unused_le (used more : List ℕ) (items : List Item) :
    (unused (used ++ more) items).length ≤ (unused used items).length :=
  (unused_sublist used more items).length_le

variable {used : List ℕ}

theorem unused_lt {more : List ℕ} {items : List Item} {i : Item} (hi : i ∈ unused used items)
    (hmore : i.index ∈ more) :
    (unused (used ++ more) items).length < (unused used items).length := by
  have hsub := unused_sublist used more items
  apply lt_of_le_of_ne hsub.length_le
  intro heq
  have hin : i ∈ unused (used ++ more) items := by
    rw [hsub.eq_of_length heq]
    exact hi
  have hfree := List.of_mem_filter hin
  simp [hmore] at hfree

theorem exists_of_slice {l : List Item} {count : ℚ} (hpos : 0 < count)
    (h : ¬ ((slice l count).length : ℚ) < count) : ∃ i, i ∈ slice l count := by
  apply List.exists_mem_of_length_pos
  have hlen := hpos.trans_le (not_lt.mp h)
  exact_mod_cast hlen

variable {fuel uses : ℕ} {got : List Item}

theorem getsByQuantity_limited {limit : ℚ} (h : limit ≤ uses + fuel) :
    (getsByQuantity (some limit) buys gets buysOrder getsOrder (fuel + 1) used got uses).isSome :=
    by
  induction fuel generalizing used got uses with
  | zero =>
    have hdone : limit ≤ uses := by simpa using h
    simp [getsByQuantity, hdone]
  | succ fuel ih =>
    rw [getsByQuantity]
    split
    · rfl
    · dsimp only
      split
      · rfl
      · split
        · rfl
        · apply ih
          push_cast at *
          linarith

/-- Where every use takes an item, the loop ends when the items do. -/
theorem getsByQuantity_consuming (hpos : 0 < buys ∨ 0 < gets)
    (h : (unused used buysOrder).length + (unused used getsOrder).length < fuel) :
    (getsByQuantity maxUses buys gets buysOrder getsOrder fuel used got uses).isSome := by
  induction fuel generalizing used got uses with
  | zero => omega
  | succ fuel ih =>
    rw [getsByQuantity]
    split
    · rfl
    · dsimp only
      split
      · rfl
      · rename_i hbought
        split
        · rfl
        · rename_i hfree
          apply ih
          generalize hb : (slice (unused used buysOrder) buys).map (·.index) = bought at *
          have hbuys := unused_le used bought buysOrder
          have hgets := unused_le used bought getsOrder
          have hbuys' := unused_le (used ++ bought)
            ((slice (unused (used ++ bought) getsOrder) gets).map (·.index)) buysOrder
          have hgets' := unused_le (used ++ bought)
            ((slice (unused (used ++ bought) getsOrder) gets).map (·.index)) getsOrder
          rcases hpos with hpos | hpos
          · obtain ⟨i, hi⟩ := exists_of_slice hpos hbought
            have hlt : (unused (used ++ bought) buysOrder).length <
                (unused used buysOrder).length :=
              unused_lt ((slice_sublist _ _).subset hi) (hb ▸ List.mem_map_of_mem hi)
            omega
          · obtain ⟨i, hi⟩ := exists_of_slice hpos hfree
            have hlt := unused_lt ((slice_sublist _ _).subset hi)
              (List.mem_map_of_mem (f := fun i : Item => i.index) hi)
            omega

theorem getsByQuantity_endless (hbuys : buys ≤ 0) (hgets : gets ≤ 0) (fuel : ℕ) (used : List ℕ)
    (got : List Item) (uses : ℕ) :
    getsByQuantity none buys gets buysOrder getsOrder fuel used got uses = none := by
  induction fuel generalizing used got uses with
  | zero => rfl
  | succ fuel ih =>
    have hb : ¬ ((slice (unused used buysOrder) buys).length : ℚ) < buys := by
      have hlen : (0 : ℚ) ≤ (slice (unused used buysOrder) buys).length := Nat.cast_nonneg _
      linarith
    rw [getsByQuantity]
    simp only [Option.any_none, Bool.false_eq_true, if_false, hb]
    split
    · rename_i hfree
      exact absurd (hfree.trans_le hgets) (not_lt.mpr (Nat.cast_nonneg _))
    · exact ih _ _ _

end Uses

/-- The uses of the promotion never come to an end. -/
structure Endless (promotion : Promotion) : Prop where
  ruleType : promotion.rule.type = .buyXGetY
  takesItems : promotion.discountClass ≠ .shipping
  unlimited : promotion.rule.reward.props.maxUsesPerOrder = none
  takesNothing : ∃ buys gets, promotion.rule.reward.props.buys = some buys ∧
    promotion.rule.reward.props.gets = some gets ∧ buys.kind = .quantity ∧ buys.value ≤ 0 ∧
    gets.quantity ≤ 0

theorem length_itemsOf (lines : List DiscountLine) (remaining : OrderedMap String ℚ) :
    (itemsOf lines remaining).length = (lines.map (·.quantity)).sum := by
  simp [itemsOf, List.length_flatMap]

variable {promotion : Promotion}

theorem lineDiscounts_endless (h : Endless promotion) (fuel : ℕ) (lines : List DiscountLine)
    (remaining : OrderedMap String ℚ) : lineDiscounts fuel promotion lines remaining = none := by
  obtain ⟨buys, gets, hb, hg, hkind, hbuys, hgets⟩ := h.takesNothing
  simp only [lineDiscounts, h.ruleType, if_true, buyXGetYDiscounts, hb, hg, hkind, h.unlimited,
    getsByQuantity_endless hbuys hgets, Option.map_none]

/-- Any other discount has its result with enough fuel, whatever is left of the lines. -/
theorem lineDiscounts_ends (hclass : promotion.discountClass ≠ .shipping) (h : ¬ Endless promotion)
    (lines : List DiscountLine) :
    ∃ enough, ∀ fuel ≥ enough, ∀ remaining,
      (lineDiscounts fuel promotion lines remaining).isSome := by
  by_cases htype : promotion.rule.type = .buyXGetY
  · cases hb : promotion.rule.reward.props.buys with
    | none => exact ⟨0, fun fuel _ remaining => by simp [lineDiscounts, htype, buyXGetYDiscounts, hb]⟩
    | some buys =>
      cases hg : promotion.rule.reward.props.gets with
      | none =>
        exact ⟨0, fun fuel _ remaining => by simp [lineDiscounts, htype, buyXGetYDiscounts, hb, hg]⟩
      | some gets =>
        cases hkind : buys.kind with
        | amount =>
          exact ⟨0, fun fuel _ remaining => by
            simp [lineDiscounts, htype, buyXGetYDiscounts, hb, hg, hkind]⟩
        | quantity =>
          cases hmax : promotion.rule.reward.props.maxUsesPerOrder with
          | some limit =>
            refine ⟨⌈limit⌉₊ + 1, fun fuel hfuel remaining => ?_⟩
            obtain ⟨n, rfl⟩ : ∃ n, fuel = n + 1 := ⟨fuel - 1, by omega⟩
            have hlimit : limit ≤ ((0 : ℕ) : ℚ) + n := by
              have hn : ⌈limit⌉₊ ≤ n := by omega
              have hcast : (⌈limit⌉₊ : ℚ) ≤ n := by exact_mod_cast hn
              simpa using (Nat.le_ceil limit).trans hcast
            simp only [lineDiscounts, htype, if_true, buyXGetYDiscounts, hb, hg, hkind, hmax,
              Option.isSome_map]
            exact getsByQuantity_limited hlimit
          | none =>
            have hpos : 0 < buys.value ∨ 0 < gets.quantity := by
              by_contra hneg
              push Not at hneg
              exact h ⟨htype, hclass, hmax, buys, gets, hb, hg, hkind, hneg.1, hneg.2⟩
            refine ⟨2 * (lines.map (·.quantity)).sum + 1, fun fuel hfuel remaining => ?_⟩
            simp only [lineDiscounts, htype, if_true, buyXGetYDiscounts, hb, hg, hkind, hmax,
              Option.isSome_map]
            apply getsByQuantity_consuming hpos
            have hlen : ∀ (keep : Item → Bool) (compare : Item → Item → ℚ),
                (unused [] (sortBy compare ((itemsOf lines remaining).filter keep))).length ≤
                  (lines.map (·.quantity)).sum := by
              intro keep compare
              rw [← length_itemsOf lines remaining]
              calc _ ≤ (sortBy compare ((itemsOf lines remaining).filter keep)).length :=
                    List.length_filter_le _ _
                _ = ((itemsOf lines remaining).filter keep).length :=
                    (sortBy_perm _ _).length_eq
                _ ≤ _ := List.length_filter_le _ _
            have hbuys := hlen (fun i => ((matchingLines lines promotion.rule.condition.scope
              promotion.rule.condition.targetRefs).map (·.lineRef)).contains i.ref)
              (fun a b => compareBy b.price a.price a b)
            have hgets := hlen (fun i => ((matchingLines lines gets.scope.toScope
              gets.targetRefs).map (·.lineRef)).contains i.ref)
              (fun a b => compareBy a.price b.price a b)
            omega
  · refine ⟨0, fun fuel _ remaining => ?_⟩
    rw [lineDiscounts, if_neg htype]
    dsimp only
    split <;> split <;> rfl

section Calculation

variable (text : TextOps) {input : CalculateDiscountsInput} {fuel : ℕ}

def Enough (fuel : ℕ) (input : CalculateDiscountsInput) (eligible : List Eligible) : Prop :=
  ∀ e ∈ eligible, e.discountClass ≠ .shipping →
    ∀ remaining, (lineDiscounts fuel e.candidate.promotion input.lines remaining).isSome

variable {eligible set : List Eligible}

theorem exists_enough (input : CalculateDiscountsInput)
    (hclass : ∀ e ∈ eligible, e.discountClass = e.candidate.promotion.discountClass)
    (h : ∀ e ∈ eligible, ¬ Endless e.candidate.promotion) :
    ∃ enough, ∀ fuel ≥ enough, Enough fuel input eligible := by
  induction eligible with
  | nil => exact ⟨0, fun _ _ e he => by cases he⟩
  | cons entry rest ih =>
    obtain ⟨n, hn⟩ := ih (fun e he => hclass e (List.mem_cons_of_mem _ he))
      (fun e he => h e (List.mem_cons_of_mem _ he))
    by_cases hship : entry.discountClass = .shipping
    · refine ⟨n, fun fuel hfuel e he hne remaining => ?_⟩
      rcases List.mem_cons.mp he with rfl | hrest
      · exact absurd hship hne
      · exact hn fuel hfuel e hrest hne remaining
    · obtain ⟨m, hm⟩ := lineDiscounts_ends (by rwa [← hclass entry (by simp)])
        (h entry (by simp)) input.lines
      refine ⟨max n m, fun fuel hfuel e he hne remaining => ?_⟩
      rcases List.mem_cons.mp he with rfl | hrest
      · exact hm fuel (by omega) remaining
      · exact hn fuel (by omega) e hrest hne remaining

theorem applySet_isSome (h : Enough fuel input eligible) (hset : ∀ e ∈ set, e ∈ eligible) :
    (applySet text fuel set input).isSome := by
  have hfold : ((sortBy (compareEntries text) set).foldlM (applyEntry fuel input.lines)
      (startAmounts input)).isSome := by
    apply FallibleFolds.foldlM_isSome
    intro entry hentry amounts
    rw [applyEntry]
    split
    · rfl
    · rename_i hclass
      have hmem := hset entry ((sortBy_perm _ set).mem_iff.mp hentry)
      obtain ⟨off, hoff⟩ := Option.isSome_iff_exists.mp (h entry hmem hclass amounts.remaining)
      rw [hoff]
      rfl
  obtain ⟨amounts, hamounts⟩ := Option.isSome_iff_exists.mp hfold
  rw [applySet, hamounts]
  rfl

theorem choose_isSome (h : Enough fuel input eligible) (hset : ∀ e ∈ set, e ∈ eligible) :
    (choose text fuel input set).isSome := by
  obtain ⟨application, happ⟩ :=
    Option.isSome_iff_exists.mp (applySet_isSome text h hset)
  rw [choose, happ]
  rfl

variable {entry e : Eligible}

theorem mem_of_subsetOf {mask : ℕ} (h : e ∈ subsetOf eligible mask) : e ∈ eligible := by
  obtain ⟨x, hx, rfl⟩ := List.mem_map.mp h
  exact List.fst_mem_of_mem_zipIdx (List.mem_of_mem_filter hx)

theorem mem_addCompatible {l : List Eligible} (h : e ∈ l.foldl addCompatible set) :
    e ∈ set ∨ e ∈ l := by
  induction l generalizing set with
  | nil => exact Or.inl h
  | cons entry rest ih =>
    rcases ih h with hset | hrest
    · rw [addCompatible] at hset
      split at hset
      · rcases List.mem_append.mp hset with hold | hnew
        · exact Or.inl hold
        · exact Or.inr (List.mem_cons.mpr (Or.inl (List.mem_singleton.mp hnew)))
      · exact Or.inl hset
    · exact Or.inr (List.mem_cons_of_mem _ hrest)

theorem bestSet_isSome (h : Enough fuel input eligible) :
    (bestSet text fuel eligible input).isSome := by
  rw [bestSet]
  split
  · obtain ⟨none, hnone⟩ := Option.isSome_iff_exists.mp
      (choose_isSome text h (List.forall_mem_nil _))
    rw [hnone]
    apply FallibleFolds.foldlM_isSome
    intro mask _ best
    rw [tryMask]
    split
    · obtain ⟨candidate, hcandidate⟩ := Option.isSome_iff_exists.mp
        (choose_isSome text h fun e he => mem_of_subsetOf he)
      rw [hcandidate]
      rfl
    · rfl
  · have hmap : (eligible.mapM (withSaving text fuel input)).isSome := by
      apply FallibleFolds.mapM_isSome
      intro entry hentry
      obtain ⟨application, happ⟩ := Option.isSome_iff_exists.mp
        (applySet_isSome text h (List.forall_mem_singleton.mpr hentry))
      rw [withSaving, happ]
      rfl
    obtain ⟨savings, hsavings⟩ := Option.isSome_iff_exists.mp hmap
    have hfst : savings.map Prod.fst = eligible := by
      refine FallibleFolds.mapM_map ?_ hsavings
      intro entry e he
      obtain ⟨application, _, he⟩ := Option.bind_eq_some_iff.mp he
      cases he
      rfl
    rw [hsavings]
    apply choose_isSome text h
    intro e he
    rcases mem_addCompatible he with hnil | hsorted
    · cases hnil
    · rw [← hfst]
      exact ((sortBy_perm _ savings).map Prod.fst).mem_iff.mp hsorted

theorem applySet_endless (hclass : entry.discountClass ≠ .shipping)
    (h : Endless entry.candidate.promotion) (fuel : ℕ) :
    applySet text fuel [entry] input = none := by
  have hstep : ∀ amounts, applyEntry fuel input.lines amounts entry = none := by
    intro amounts
    rw [applyEntry, if_neg hclass, lineDiscounts_endless h]
    rfl
  have hfold : (sortBy (compareEntries text) [entry]).foldlM (applyEntry fuel input.lines)
      (startAmounts input) = none := by
    apply FallibleFolds.foldlM_eq_none (a := entry) _ hstep
    exact (sortBy_perm _ [entry]).mem_iff.mpr (by simp)
  rw [applySet, hfold]
  rfl

theorem subsetOf_bit (eligible : List Eligible) {i : ℕ} (hi : i < eligible.length) :
    subsetOf eligible (2 ^ i) = [eligible[i]] := by
  have hfilter : ∀ (l : List Eligible) (start : ℕ), start ≤ i → ∀ hi : i - start < l.length,
      ((l.zipIdx start).filter fun e => (2 ^ i).testBit e.2).map Prod.fst = [l[i - start]] := by
    intro l
    induction l with
    | nil => exact fun start _ hi => absurd hi (Nat.not_lt_zero _)
    | cons e rest ih =>
      intro start hle hi
      rw [List.zipIdx_cons, List.filter_cons]
      by_cases heq : i = start
      · subst heq
        have hnone : (rest.zipIdx (i + 1)).filter (fun e => (2 ^ i).testBit e.2) = [] := by
          rw [List.filter_eq_nil_iff]
          intro x hx
          have hge := (List.mem_zipIdx hx).1
          rw [Nat.testBit_two_pow]
          simp only [decide_eq_true_eq]
          omega
        simp [Nat.testBit_two_pow_self, hnone]
      · have hbit : (2 ^ i).testBit start = false := by
          rw [Nat.testBit_two_pow]
          exact decide_eq_false heq
        have hrest := ih (start + 1) (by omega) (by simp only [List.length_cons] at hi; omega)
        rw [if_neg (by simp [hbit]), hrest]
        congr 1
        rw [List.getElem_cons, dif_neg (by omega)]
        congr 1
  exact hfilter eligible 0 (Nat.zero_le i) hi

theorem bestSet_endless (hmem : entry ∈ eligible) (hclass : entry.discountClass ≠ .shipping)
    (h : Endless entry.candidate.promotion) (fuel : ℕ) :
    bestSet text fuel eligible input = none := by
  have happ : applySet text fuel [entry] input = none := applySet_endless text hclass h fuel
  rw [bestSet]
  split
  · obtain ⟨i, hi, rfl⟩ := List.getElem_of_mem hmem
    cases hnone : choose text fuel input [] with
    | none => rfl
    | some best =>
      have hmask : 2 ^ i ∈ List.range' 1 (2 ^ eligible.length - 1) := by
        have hlt : 2 ^ i < 2 ^ eligible.length := Nat.pow_lt_pow_right (by omega) hi
        have hpos : 0 < 2 ^ i := Nat.two_pow_pos i
        rw [List.mem_range'_1]
        omega
      apply FallibleFolds.foldlM_eq_none hmask
      intro best
      rw [tryMask]
      simp only [subsetOf_bit eligible hi, isCompatible, List.all_nil, Bool.and_self, if_true,
        choose, happ]
      rfl
  · have hnone : eligible.mapM (withSaving text fuel input) = none := by
      apply FallibleFolds.mapM_eq_none hmem
      rw [withSaving, happ]
      rfl
    rw [hnone]
    rfl

end Calculation

end Promotions

import Lumo.PromotionsBestSet

/-! # The statuses of the entered codes

Each entered code gets one status, which is put together from the choice that was made. A code that
the choice leaves out plays no part in it. -/
namespace Promotions

open SharedKernel Builtins

section Choice

variable {text : TextOps} {fuel : ℕ} {input : CalculateDiscountsInput} {keep : Eligible → Bool}

/-- `tryMask`, of the set that the mask picks. -/
def trySet (text : TextOps) (fuel : ℕ) (input : CalculateDiscountsInput) (best : Chosen)
    (set : List Eligible) : Option Chosen :=
  if isCompatible set then do
    let candidate ← choose text fuel input set
    some (if isBetter candidate best then candidate else best)
  else some best

def subsetsOf (eligible : List Eligible) : List (List Eligible) :=
  (List.range (2 ^ eligible.length)).map (subsetOf eligible)

theorem range_double (n : ℕ) :
    List.range (2 * n) = (List.range n).flatMap fun i => [2 * i, 2 * i + 1] := by
  induction n with
  | zero => rfl
  | succ n ih =>
    have hsucc : 2 * (n + 1) = 2 * n + 1 + 1 := by omega
    rw [hsucc, List.range_succ, List.range_succ, ih, List.range_succ (n := n), List.flatMap_append]
    simp

theorem subsetsOf_cons (entry : Eligible) (rest : List Eligible) :
    subsetsOf (entry :: rest) = (subsetsOf rest).flatMap fun set => [set, entry :: set] := by
  rw [subsetsOf, subsetsOf, List.length_cons, pow_succ, mul_comm, range_double, List.map_flatMap,
    List.flatMap_map]
  congr 1
  funext mask
  have heven : 2 * mask / 2 = mask := by omega
  have hodd : (2 * mask + 1) / 2 = mask := by omega
  simp [subsetOf_cons, heven, hodd]

theorem subsetsOf_filter (keep : Eligible → Bool) (eligible : List Eligible) :
    subsetsOf (eligible.filter keep) = (subsetsOf eligible).filter fun set => set.all keep := by
  induction eligible with
  | nil => rfl
  | cons entry rest ih =>
    rw [subsetsOf_cons, List.filter_flatMap]
    cases hkeep : keep entry with
    | true =>
      rw [List.filter_cons_of_pos hkeep, subsetsOf_cons, ih]
      generalize subsetsOf rest = sets
      induction sets with
      | nil => rfl
      | cons set sets ih =>
        cases hset : set.all keep <;> simp [hset, hkeep, ih]
    | false =>
      rw [List.filter_cons_of_neg (by simp [hkeep]), ih]
      generalize subsetsOf rest = sets
      induction sets with
      | nil => rfl
      | cons set sets ih =>
        cases hset : set.all keep <;> simp [hset, hkeep, ih]

theorem rank_better (candidate best : Chosen) :
    best.rank ≤ (if isBetter candidate best then candidate else best).rank ∧
      candidate.rank ≤ (if isBetter candidate best then candidate else best).rank := by
  cases hbetter : isBetter candidate best with
  | true => exact ⟨((isBetter_iff _ _).mp hbetter).le, le_rfl⟩
  | false => exact ⟨le_rfl, (not_isBetter_iff _ _).mp hbetter⟩

/-- The subsets that are left out of a fold do not matter, once the fold over all of them ends in
one that is kept. On the way, the fold over the others is never ahead. -/
theorem trySets_filter (keep : Eligible → Bool) {sets : List (List Eligible)} {best other last : Chosen}
    (hle : other.rank ≤ best.rank) (hsame : best.set.all keep = true → other = best)
    (h : sets.foldlM (trySet text fuel input) best = some last) :
    ∃ last', (sets.filter fun set => set.all keep).foldlM (trySet text fuel input) other =
        some last' ∧ last'.rank ≤ last.rank ∧ (last.set.all keep = true → last' = last) := by
  induction sets generalizing best other with
  | nil =>
    cases h
    exact ⟨other, rfl, hle, hsame⟩
  | cons set rest ih =>
    rw [List.foldlM_cons] at h
    obtain ⟨next, hnext, hrest⟩ := Option.bind_eq_some_iff.mp h
    rw [trySet] at hnext
    rw [List.filter_cons]
    by_cases hcompatible : isCompatible set = true
    · rw [if_pos hcompatible] at hnext
      obtain ⟨candidate, hcandidate, hnext⟩ := Option.bind_eq_some_iff.mp hnext
      obtain ⟨hset, _⟩ := choose_some hcandidate
      obtain rfl := Option.some.inj hnext
      obtain ⟨hbest, hahead⟩ := rank_better candidate best
      by_cases hkeep : set.all keep = true
      · rw [if_pos hkeep, List.foldlM_cons, trySet, if_pos hcompatible, hcandidate]
        apply ih _ _ hrest
        · split
          · exact hahead
          · exact hle.trans hbest
        · cases hbetter : isBetter candidate best with
          | true =>
            have hother : isBetter candidate other = true :=
              (isBetter_iff _ _).mpr (hle.trans_lt ((isBetter_iff _ _).mp hbetter))
            rw [hother]
            exact fun _ => rfl
          | false =>
            intro hkept
            obtain rfl := hsame hkept
            rw [hbetter]
      · rw [if_neg hkeep]
        apply ih (hle.trans hbest) _ hrest
        cases hbetter : isBetter candidate best with
        | true =>
          intro hkept
          rw [if_pos rfl, hset] at hkept
          exact absurd hkept hkeep
        | false => exact hsame
    · rw [if_neg hcompatible] at hnext
      obtain rfl := Option.some.inj hnext
      by_cases hkeep : set.all keep = true
      · rw [if_pos hkeep, List.foldlM_cons, trySet, if_neg hcompatible]
        exact ih hle hsame hrest
      · rw [if_neg hkeep]
        exact ih hle hsame hrest

theorem subsetsOf_eq (eligible : List Eligible) :
    subsetsOf eligible =
      [] :: (List.range' 1 (2 ^ eligible.length - 1)).map (subsetOf eligible) := by
  have hpos : 0 < 2 ^ eligible.length := Nat.two_pow_pos _
  obtain ⟨n, hn⟩ : ∃ n, 2 ^ eligible.length = n + 1 := ⟨2 ^ eligible.length - 1, by omega⟩
  have hnone : subsetOf eligible 0 = [] := by simp [subsetOf]
  rw [subsetsOf, hn, List.range_eq_range', List.range'_succ, List.map_cons, hnone]
  simp

theorem bestSet_subsets {eligible : List Eligible} (hlimit : eligible.length ≤ exhaustiveLimit) :
    bestSet text fuel eligible input = (choose text fuel input []).bind fun none =>
      (subsetsOf eligible).tail.foldlM (trySet text fuel input) none := by
  rw [bestSet, if_pos hlimit, subsetsOf_eq, List.tail_cons]
  simp only [List.foldlM_map]
  rfl

theorem bestSet_filter {eligible : List Eligible} {best : Chosen}
    (hlimit : eligible.length ≤ exhaustiveLimit)
    (h : bestSet text fuel eligible input = some best) (hkeep : best.set.all keep = true) :
    bestSet text fuel (eligible.filter keep) input = some best := by
  have hlimit' : (eligible.filter keep).length ≤ exhaustiveLimit :=
    (List.length_filter_le _ _).trans hlimit
  rw [bestSet_subsets hlimit] at h
  obtain ⟨none, hnone, h⟩ := Option.bind_eq_some_iff.mp h
  obtain ⟨last, hlast, _, hsame⟩ := trySets_filter keep le_rfl (fun _ => rfl) h
  rw [bestSet_subsets hlimit', subsetsOf_filter, hnone]
  have htail : ((subsetsOf eligible).filter fun set => set.all keep).tail =
      (subsetsOf eligible).tail.filter fun set => set.all keep := by
    rw [subsetsOf_eq]
    rfl
  rw [htail]
  change ((subsetsOf eligible).tail.filter fun set => set.all keep).foldlM _ none = _
  rw [hlast, hsame hkeep]

end Choice

section Codes

variable {text : TextOps} {fuel : ℕ} {input : CalculateDiscountsInput} {code : String}

theorem enteredCodes_nodup (text : TextOps) (input : CalculateDiscountsInput) :
    (enteredCodes text input).Nodup :=
  (nodup_distinctValues _).filter _

theorem mem_enteredCodes :
    code ∈ enteredCodes text input ↔
      code ≠ "" ∧ ∃ entered ∈ input.enteredCodes, normalizeDiscountCode text entered = code := by
  rw [enteredCodes, List.mem_filter, distinctValues, List.mem_eraseDups, List.mem_map, bne_iff_ne,
    and_comm]

/-- The same cart, but for one of the codes. -/
def withoutCode (text : TextOps) (code : String) (input : CalculateDiscountsInput) :
    CalculateDiscountsInput :=
  { input with enteredCodes := input.enteredCodes.filter fun entered =>
      normalizeDiscountCode text entered != code }

theorem enteredCodes_without :
    enteredCodes text (withoutCode text code input) =
      (enteredCodes text input).filter (· != code) := by
  have hmap : (withoutCode text code input).enteredCodes.map (normalizeDiscountCode text) =
      (input.enteredCodes.map (normalizeDiscountCode text)).filter (· != code) := by
    rw [List.filter_map]
    rfl
  rw [enteredCodes, hmap, distinctValues_filter, enteredCodes, List.filter_comm]

theorem take_filter_of_not_mem {l : List String} {n : ℕ} (h : code ∉ l.take n) :
    (l.filter (· != code)).take n = l.take n := by
  induction l generalizing n with
  | nil => rfl
  | cons first rest ih =>
    cases n with
    | zero => rfl
    | succ n =>
      rw [List.take_succ_cons, List.mem_cons, not_or] at h
      have hfirst : (first != code) = true := bne_iff_ne.mpr (Ne.symm h.1)
      rw [List.filter_cons, if_pos hfirst, List.take_succ_cons, List.take_succ_cons, ih h.2]

theorem mem_active_without {other : String}
    (h : (enteredCodes text input).length ≤ maxDiscountCodes ∨
      code ∉ (enteredCodes text input).take maxDiscountCodes) :
    other ∈ (enteredCodes text (withoutCode text code input)).take maxDiscountCodes ↔
      other ∈ (enteredCodes text input).take maxDiscountCodes ∧ other ≠ code := by
  rw [enteredCodes_without]
  rcases h with hfew | hlater
  · have hfew' : ((enteredCodes text input).filter (· != code)).length ≤ maxDiscountCodes :=
      (List.length_filter_le _ _).trans hfew
    rw [List.take_of_length_le hfew, List.take_of_length_le hfew', List.mem_filter, bne_iff_ne]
  · rw [take_filter_of_not_mem hlater]
    refine ⟨fun hother => ⟨hother, ?_⟩, fun hother => hother.1⟩
    rintro rfl
    exact hlater hother

theorem consider_without {active active' : List String}
    (hactive : ∀ other, other ∈ active' ↔ other ∈ active ∧ other ≠ code)
    (candidate : DiscountCandidate) :
    Consideration.entry? (consider text active' (withoutCode text code input) candidate) =
      (Consideration.entry? (consider text active input candidate)).filter
        fun e => e.code != some code := by
  have hreject : rejectionFor text candidate (withoutCode text code input) =
      rejectionFor text candidate input := rfl
  rw [consider, consider, hreject]
  cases hcoupon : couponCode text candidate with
  | none =>
    by_cases hmethod : candidate.promotion.method = some .automatic
    · cases rejectionFor text candidate input <;>
        simp [hmethod, Consideration.entry?, Option.filter_some]
    · simp [hmethod, Consideration.entry?]
  | some own =>
    by_cases hown : own ∈ active
    · by_cases hsame : own = code
      · subst hsame
        cases rejectionFor text candidate input <;>
          simp [hown, hactive, Consideration.entry?, Option.filter_some]
      · cases rejectionFor text candidate input <;>
          simp [hown, hsame, hactive, Consideration.entry?, Option.filter_some]
    · simp [hown, hactive, Consideration.entry?]

theorem eligibleFor_without (h : (enteredCodes text input).length ≤ maxDiscountCodes ∨
      code ∉ (enteredCodes text input).take maxDiscountCodes) :
    eligibleFor text (withoutCode text code input) =
      (eligibleFor text input).filter fun e => e.code != some code := by
  rw [eligibleFor, eligibleFor, considerations, considerations, List.filterMap_map,
    List.filterMap_map, List.filter_filterMap]
  congr 1
  funext candidate
  exact consider_without (fun other => mem_active_without h) candidate

theorem codeStatus_code (eligible : List Eligible)
    (rejections : OrderedMap String DiscountRejection) (best : Chosen) (empty : List String)
    (code : String) (index : ℕ) :
    (codeStatus eligible rejections best empty code index).code = code := by
  rw [codeStatus]
  split
  · rfl
  · split
    · rfl
    · split
      · rfl
      · split
        · rfl
        · split <;> rfl

theorem codeStatus_applicable (eligible : List Eligible)
    (rejections : OrderedMap String DiscountRejection) (best : Chosen) (empty : List String)
    (code : String) (index : ℕ) :
    (codeStatus eligible rejections best empty code index).applicable = true ↔
      index < maxDiscountCodes ∧ code ∉ empty ∧ ∃ e ∈ best.set, e.code = some code := by
  have hset : (best.set.filterMap (·.code)).contains code = true ↔
      ∃ e ∈ best.set, e.code = some code := by
    rw [List.contains_iff_mem, List.mem_filterMap]
  rw [codeStatus, ← hset, ← not_le]
  by_cases hindex : maxDiscountCodes ≤ index
  · simp [hindex]
  · by_cases hempty : code ∈ empty
    · simp [hindex, hempty]
    · by_cases hchosen : (best.set.filterMap (·.code)).contains code = true
      · simp only [hindex, hempty, hchosen, if_false, if_true, List.contains_iff_mem,
          not_false_eq_true, and_self]
      · refine iff_of_false ?_ fun h => hchosen h.2.2
        rw [if_neg hindex, if_neg (by simpa using hempty), if_neg hchosen]
        split
        · exact Bool.false_ne_true
        · split <;> exact Bool.false_ne_true

/-- The code unlocks a discount of the chosen set that gives nothing: a product or order discount,
or the shipping discount once a rate is chosen. -/
def GivesNothing (input : CalculateDiscountsInput) (applied : List AppliedDiscount)
    (code : String) : Prop :=
  ∃ a ∈ applied, a.code = some code ∧ a.amountMinor = 0 ∧
    (a.discountClass ≠ .shipping ∨ input.shipping.isSome = true)

theorem mem_emptyCodes {applied : List AppliedDiscount} :
    code ∈ emptyCodes input applied ↔ GivesNothing input applied code := by
  rw [emptyCodes, List.mem_filterMap]
  constructor
  · rintro ⟨a, ha, hcode⟩
    obtain ⟨hmem, hempty⟩ := List.mem_filter.mp ha
    simp only [Bool.and_eq_true, beq_iff_eq, Bool.or_eq_true, bne_iff_ne] at hempty
    exact ⟨a, hmem, hcode, hempty⟩
  · rintro ⟨a, hmem, hcode, hempty⟩
    refine ⟨a, List.mem_filter.mpr ⟨hmem, ?_⟩, hcode⟩
    simpa only [Bool.and_eq_true, beq_iff_eq, Bool.or_eq_true, bne_iff_ne] using hempty

theorem eligibleFor_unlocked {entry : Eligible} (h : entry ∈ eligibleFor text input) :
    entry.code = couponCode text entry.candidate ∧
      (∀ code, entry.code = some code →
        code ∈ (enteredCodes text input).take maxDiscountCodes) ∧
      (entry.code = none → entry.candidate.promotion.method = some .automatic) := by
  obtain ⟨candidate, _, hc⟩ := eligibleFor_mem h
  obtain ⟨rfl, hcode, _, _⟩ := consider_eligible hc
  refine ⟨hcode, ?_, ?_⟩
  · intro code hown
    rw [consider] at hc
    by_contra hnot
    rw [hcode] at hown
    simp [hown, hnot] at hc
  · intro hnone
    rw [consider] at hc
    by_contra hmethod
    rw [hcode] at hnone
    simp [hnone, hmethod] at hc

theorem index_of_take {l : List String} {n i : ℕ} (hl : l.Nodup) (hi : (code, i) ∈ l.zipIdx)
    (h : code ∈ l.take n) : i < n := by
  obtain ⟨hlt, hget⟩ := List.mem_zipIdx' hi
  obtain ⟨j, hj, hjget⟩ := List.getElem_of_mem h
  rw [List.length_take] at hj
  rw [List.getElem_take] at hjget
  have heq : i = j := (List.Nodup.getElem_inj_iff hl).mp (hget.symm.trans hjget.symm)
  omega

end Codes

section Statuses

variable {text : TextOps} {fuel : ℕ} {input : CalculateDiscountsInput} {best : Chosen}
  {result : DiscountResult}

/-- No amount is another. -/
structure SameAmounts (result other : DiscountResult) : Prop where
  applied : other.applied = result.applied
  order : other.orderDiscountMinor = result.orderDiscountMinor
  shipping : other.shippingDiscountMinor = result.shippingDiscountMinor
  lines : other.lineAllocations = result.lineAllocations

theorem statuses_codes (h : calculateDiscounts text fuel input = some result) :
    result.codeStatuses.map (·.code) = enteredCodes text input := by
  obtain ⟨best, _, h⟩ := Option.bind_eq_some_iff.mp h
  cases h
  rw [List.map_map]
  calc _ = (enteredCodes text input).zipIdx.map Prod.fst := by
        apply List.map_congr_left
        intro c _
        exact codeStatus_code _ _ _ _ c.1 c.2
    _ = enteredCodes text input := List.zipIdx_map_fst 0 _

theorem statuses_applicable (hbest : bestSet text fuel (eligibleFor text input) input = some best)
    (h : calculateDiscounts text fuel input = some result) {status : DiscountCodeStatus}
    (hstatus : status ∈ result.codeStatuses) :
    status.applicable = true ↔
      (∃ e ∈ best.set, e.code = some status.code) ∧
        ¬ GivesNothing input best.applied status.code := by
  rw [calculateDiscounts, hbest] at h
  cases h
  obtain ⟨c, hc, rfl⟩ := List.mem_map.mp hstatus
  rw [codeStatus_applicable, codeStatus_code, mem_emptyCodes]
  constructor
  · rintro ⟨_, hgives, hchosen⟩
    exact ⟨hchosen, hgives⟩
  · rintro ⟨⟨e, he, hcode⟩, hgives⟩
    have heligible := (bestSet_some hbest).1.subset he
    have htake := (eligibleFor_unlocked heligible).2.1 c.1 hcode
    exact ⟨index_of_take (enteredCodes_nodup text input) hc htake, hgives, e, he, hcode⟩

theorem applied_unlocked (hbest : bestSet text fuel (eligibleFor text input) input = some best)
    (h : calculateDiscounts text fuel input = some result) {a : AppliedDiscount}
    (ha : a ∈ result.applied) :
    ∃ e ∈ best.set, e.promotionId = a.promotionId ∧ e.code = a.code ∧
      (e.candidate.promotion.method ≠ some .automatic →
        ∃ coupon, e.candidate.coupon = some coupon ∧ ∃ entered ∈ input.enteredCodes,
          normalizeDiscountCode text entered = normalizeDiscountCode text coupon.code) := by
  rw [calculateDiscounts, hbest] at h
  cases h
  obtain ⟨hsub, happ⟩ := bestSet_some hbest
  have hnamed : (a.promotionId, a.code) ∈ best.set.map fun e => (e.promotionId, e.code) :=
    (applySet_names happ).subset (List.mem_map_of_mem (List.mem_of_mem_filter ha))
  obtain ⟨e, he, hname⟩ := List.mem_map.mp hnamed
  obtain ⟨hid, hcode⟩ := Prod.mk.inj hname
  refine ⟨e, he, hid, hcode, ?_⟩
  intro hmethod
  obtain ⟨hcoupon, htake, hnone⟩ := eligibleFor_unlocked (hsub.subset he)
  cases hown : e.code with
  | none => exact absurd (hnone hown) hmethod
  | some code =>
    rw [hown] at hcoupon
    obtain ⟨coupon, hc, hnormal⟩ := Option.map_eq_some_iff.mp hcoupon.symm
    obtain ⟨_, entered, hentered, heq⟩ := mem_enteredCodes.mp (List.mem_of_mem_take (htake code hown))
    exact ⟨coupon, hc, entered, hentered, heq.trans hnormal.symm⟩

theorem amounts_without {code : String} (hlimit : (eligibleFor text input).length ≤ exhaustiveLimit)
    (hbest : bestSet text fuel (eligibleFor text input) input = some best)
    (h : calculateDiscounts text fuel input = some result)
    (hfew : (enteredCodes text input).length ≤ maxDiscountCodes ∨
      code ∉ (enteredCodes text input).take maxDiscountCodes)
    (hout : ¬ ∃ e ∈ best.set, e.code = some code) :
    ∃ other, calculateDiscounts text fuel (withoutCode text code input) = some other ∧
      SameAmounts result other := by
  have hkeep : best.set.all (fun e => e.code != some code) = true := by
    rw [List.all_eq_true]
    intro e he
    exact bne_iff_ne.mpr fun hcode => hout ⟨e, he, hcode⟩
  have hbest' : bestSet text fuel (eligibleFor text (withoutCode text code input))
      (withoutCode text code input) = some best := by
    rw [eligibleFor_without hfew]
    exact bestSet_filter hlimit hbest hkeep
  rw [calculateDiscounts, hbest] at h
  cases h
  rw [calculateDiscounts, hbest']
  exact ⟨_, rfl, rfl, rfl, rfl, rfl⟩

end Statuses

/-- The statuses of the entered codes, for every cart. The calculation answers unless an eligible
discount is endless; then each code has one status, it is applicable when it unlocks a discount of
the chosen set and none that gives nothing, and a code that unlocks nothing in the chosen set can be
left out. -/
theorem codeStatuses_sound (text : TextOps) (input : CalculateDiscountsInput) :
    ((∃ result, Returns text input result) ↔
        ∀ e ∈ eligibleFor text input, ¬ Endless e.candidate.promotion) ∧
      ∀ fuel best result, bestSet text fuel (eligibleFor text input) input = some best →
        calculateDiscounts text fuel input = some result →
        (result.codeStatuses.map (·.code) = enteredCodes text input ∧
          (enteredCodes text input).Nodup ∧
          ∀ code, code ∈ enteredCodes text input ↔ code ≠ "" ∧
            ∃ entered ∈ input.enteredCodes, normalizeDiscountCode text entered = code) ∧
        (∀ status ∈ result.codeStatuses, status.applicable = true ↔
          (∃ e ∈ best.set, e.code = some status.code) ∧
            ¬ GivesNothing input best.applied status.code) ∧
        (∀ a ∈ result.applied, ∃ e ∈ best.set, e.promotionId = a.promotionId ∧ e.code = a.code ∧
          (e.candidate.promotion.method ≠ some .automatic →
            ∃ coupon, e.candidate.coupon = some coupon ∧ ∃ entered ∈ input.enteredCodes,
              normalizeDiscountCode text entered = normalizeDiscountCode text coupon.code)) ∧
        ((eligibleFor text input).length ≤ exhaustiveLimit →
          ∀ status ∈ result.codeStatuses, (¬ ∃ e ∈ best.set, e.code = some status.code) →
          ((enteredCodes text input).length ≤ maxDiscountCodes ∨
            status.code ∉ (enteredCodes text input).take maxDiscountCodes) →
          ∃ other, calculateDiscounts text fuel (withoutCode text status.code input) = some other ∧
            SameAmounts result other) := by
  refine ⟨returns_iff text input, ?_⟩
  intro fuel best result hbest h
  refine ⟨⟨statuses_codes h, enteredCodes_nodup text input, fun _ => mem_enteredCodes⟩, ?_, ?_, ?_⟩
  · intro status hstatus
    exact statuses_applicable hbest h hstatus
  · intro a ha
    exact applied_unlocked hbest h ha
  · intro hlimit status _ hout hfew
    exact amounts_without hlimit hbest h hfew hout

/-! A cart with a pen at five, of which a tenth is nothing. -/

def tenthOff (ref : String) (stackable : Bool) : PromotionRule where
  type := .automatic
  condition := ⟨.product, [ref], none, none⟩
  reward := tenPercentOff.reward
  stackable := stackable
  priority := 0
  valid := by decide
  priority_nonneg := tenPercentOff.priority_nonneg

def automaticSale (id : UniqueEntityId) (rule : PromotionRule) : DiscountCandidate where
  promotion := { Promotion.create id "Sale" rule ⟨0, none⟩ .everyone none (some .automatic) none
    with status := .active }
  coupon := none

def codeSale (code : String) (id : UniqueEntityId) (rule : PromotionRule) : DiscountCandidate where
  promotion := { Promotion.create id "Sale" rule ⟨0, none⟩ .everyone none (some .code) none
    with status := .active }
  coupon := some ⟨code, code, .active, none, 0, false, none, none, []⟩

def penCart (enteredCodes : List String) (candidates : List DiscountCandidate) :
    CalculateDiscountsInput where
  lines := [⟨"0", "tea", [], 1, 1000⟩, ⟨"1", "pot", [], 1, 1000⟩, ⟨"2", "pen", [], 1, 5⟩]
  shipping := none
  customer := ⟨none, none⟩
  enteredCodes := enteredCodes
  candidates := candidates
  now := 1

/-- A tenth off the pen, by code. -/
def penSale : DiscountCandidate := codeSale "PEN" ⟨"pc", by decide⟩ (tenthOff "pen" true)

/-- A tenth off the tea that combines with others, or a tenth off the pot that does not. -/
def teaOrPot : List DiscountCandidate :=
  [automaticSale ⟨"pz", by decide⟩ (tenthOff "tea" true),
    automaticSale ⟨"pa", by decide⟩ (tenthOff "pot" false), penSale]

/-- A chosen code that gives nothing is not applicable. It still wins the tie for the tea, which
the pot wins without it; and a sixth code is one of the first five without the first. -/
theorem codeStatuses_fails :
    (∃ best result, bestSet sampleText 0 (eligibleFor sampleText (penCart ["PEN"] [penSale]))
          (penCart ["PEN"] [penSale]) = some best ∧
        calculateDiscounts sampleText 0 (penCart ["PEN"] [penSale]) = some result ∧
        ∃ status ∈ result.codeStatuses, status.applicable = false ∧
          ∃ e ∈ best.set, e.code = some status.code) ∧
      (∃ result other, calculateDiscounts sampleText 0 (penCart ["PEN"] teaOrPot) = some result ∧
        calculateDiscounts sampleText 0
          (withoutCode sampleText "PEN" (penCart ["PEN"] teaOrPot)) = some other ∧
        (∃ status ∈ result.codeStatuses, status.code = "PEN" ∧ status.applicable = false) ∧
        result.lineAllocations.map (·.lineRef) = ["0"] ∧
        other.lineAllocations.map (·.lineRef) = ["1"]) ∧
      ∃ result other, calculateDiscounts sampleText 0
          (penCart ["A", "B", "C", "D", "E", "TEA"]
            [codeSale "TEA" ⟨"pt", by decide⟩ (tenthOff "tea" true)]) = some result ∧
        calculateDiscounts sampleText 0 (withoutCode sampleText "A"
          (penCart ["A", "B", "C", "D", "E", "TEA"]
            [codeSale "TEA" ⟨"pt", by decide⟩ (tenthOff "tea" true)])) = some other ∧
        (∃ status ∈ result.codeStatuses, status.code = "A" ∧ status.applicable = false) ∧
        result.orderDiscountMinor = 0 ∧ other.orderDiscountMinor = 100 := by
  refine ⟨?_, ?_, ?_⟩
  · have hbest : (bestSet sampleText 0 (eligibleFor sampleText (penCart ["PEN"] [penSale]))
        (penCart ["PEN"] [penSale])).any (fun best =>
          ∃ e ∈ best.set, e.code = some "PEN") = true := by
      decide +kernel
    have hresult : (calculateDiscounts sampleText 0 (penCart ["PEN"] [penSale])).any (fun result =>
        ∃ status ∈ result.codeStatuses, status.applicable = false ∧ status.code = "PEN") =
          true := by
      decide +kernel
    obtain ⟨best, hbest, hset⟩ := (Option.any_eq_true _ _).mp hbest
    obtain ⟨result, hresult, hstatus⟩ := (Option.any_eq_true _ _).mp hresult
    obtain ⟨status, hmem, hout, hcode⟩ := of_decide_eq_true hstatus
    refine ⟨best, result, hbest, hresult, status, hmem, hout, ?_⟩
    rw [hcode]
    exact of_decide_eq_true hset
  · have hresult : (calculateDiscounts sampleText 0 (penCart ["PEN"] teaOrPot)).any (fun result =>
        (∃ status ∈ result.codeStatuses, status.code = "PEN" ∧ status.applicable = false) ∧
          result.lineAllocations.map (·.lineRef) = ["0"]) = true := by
      decide +kernel
    have hother : (calculateDiscounts sampleText 0
        (withoutCode sampleText "PEN" (penCart ["PEN"] teaOrPot))).any (fun other =>
          other.lineAllocations.map (·.lineRef) = ["1"]) = true := by
      decide +kernel
    obtain ⟨result, hresult, hreported⟩ := (Option.any_eq_true _ _).mp hresult
    obtain ⟨other, hother, hpot⟩ := (Option.any_eq_true _ _).mp hother
    obtain ⟨hout, htea⟩ := of_decide_eq_true hreported
    exact ⟨result, other, hresult, hother, hout, htea, of_decide_eq_true hpot⟩
  · have hresult : (calculateDiscounts sampleText 0
        (penCart ["A", "B", "C", "D", "E", "TEA"]
          [codeSale "TEA" ⟨"pt", by decide⟩ (tenthOff "tea" true)])).any (fun result =>
        (∃ status ∈ result.codeStatuses, status.code = "A" ∧ status.applicable = false) ∧
          result.orderDiscountMinor = 0) = true := by
      decide +kernel
    have hother : (calculateDiscounts sampleText 0 (withoutCode sampleText "A"
        (penCart ["A", "B", "C", "D", "E", "TEA"]
          [codeSale "TEA" ⟨"pt", by decide⟩ (tenthOff "tea" true)]))).any (fun other =>
        other.orderDiscountMinor = 100) = true := by
      decide +kernel
    obtain ⟨result, hresult, hreported⟩ := (Option.any_eq_true _ _).mp hresult
    obtain ⟨other, hother, hhundred⟩ := (Option.any_eq_true _ _).mp hother
    obtain ⟨hout, hzero⟩ := of_decide_eq_true hreported
    exact ⟨result, other, hresult, hother, hout, hzero, of_decide_eq_true hhundred⟩

end Promotions
